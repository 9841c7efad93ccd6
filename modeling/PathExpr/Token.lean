import PathExpr.Fragment
import PathExpr.Text.Literal

namespace PathExpr

-- A numbered fragment. Whether brackets delimited it is all that is kept of its
-- notation: an index, a wildcard, a slice and a filter are not told apart here.
structure Token where
  fragment : Text
  position : Nat
  isEnd : Bool := false
  isArrayIndex : Bool := false
deriving DecidableEq

namespace Token

def isRoot (token : Token) : Bool := token.position == 0 && token.fragment == ['$']

def ofFragments (fragments : List Fragment) : List Token :=
  fragments.mapIdx fun position fragment =>
    ⟨fragment.text,position,position+1 == fragments.length,fragment.bracketed⟩

def flagName : Bool → Text
  | true => "True".toList
  | false => "False".toList

def summary (token : Token) : Text :=
  "PathToken(fragment=".toList ++ token.fragment.literal ++
    ", position=".toList ++ Text.ofNat token.position ++
    ", is_end=".toList ++ flagName token.isEnd ++
    ", is_array_index_token=".toList ++ flagName token.isArrayIndex ++ [')']

end Token
end PathExpr
