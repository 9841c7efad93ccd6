import PathExpr.Text

namespace PathExpr

-- A number as it was written: digits alone name an integer, and a fraction or an
-- exponent makes a decimal, which is a significand times a power of ten. The rest
-- are words.
inductive Numeral where
  | integer (value : Int)
  | decimal (significand exponent : Int)
  | nan
  | infinite (negative : Bool)
deriving DecidableEq

-- The values of the interchange format. The fields of an object keep their order
-- and may repeat a key.
inductive Json where
  | null
  | bool (value : Bool)
  | number (numeral : Numeral)
  | string (text : Text)
  | array (items : List Json)
  | object (fields : List (Text × Json))

namespace Json

def ofNat (n : Nat) : Json := .number (.integer n)

mutual
def depth : Json → Nat
  | array items => depthOfItems items
  | object fields => depthOfFields fields
  | _ => 0
def depthOfItems : List Json → Nat
  | [] => 0
  | item :: items => max (item.depth + 1) (depthOfItems items)
def depthOfFields : List (Text × Json) → Nat
  | [] => 0
  | (_,value) :: fields => max (value.depth + 1) (depthOfFields fields)
end

def field? (fields : List (Text × Json)) (key : Text) : Option Json := fields.reverse.lookup key

end Json
end PathExpr
