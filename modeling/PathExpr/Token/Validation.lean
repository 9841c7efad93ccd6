import PathExpr.Json.Reader
import PathExpr.Number.Binary64
import PathExpr.Text.Digits
import PathExpr.Token.Issue
import PathExpr.Token.Wire

-- Tokens out of values that claim to be some. Fields are read leniently, and all
-- that is wrong is reported, in the order of the fields and of the list.
namespace PathExpr.Token

def fragmentOf : Json → Except Complaint Text
  | .string text => .ok text
  | _ => .error .noString

def notNegative (value : Int) : Except Complaint Nat :=
  if value < 0 then .error .negative else .ok value.toNat

def leastWord : Int := -9223372036854775808

def greatestWord : Int := 9223372036854775807

-- A decimal counts as what its nearest double is. The least word is already too
-- large for one.
def decimalInteger (significand exponent : Int) : Except Complaint Int :=
  let number := Binary64.ofDecimal significand exponent
  match number.integer? with
  | some value =>
    if leastWord < value && value ≤ greatestWord then .ok value else .error .tooLarge
  | none => if number.isFinite then .error .fractional else .error .infinite

def textInteger (text : Text) : Except Complaint Int :=
  if Text.startsOverlong text then .error .tooLarge
  else
    match Text.integer? text with
    | some value => .ok value
    | none => .error .noIntegerText

def positionOf : Json → Except Complaint Nat
  | .number (.integer value) => notNegative value
  | .number (.decimal significand exponent) =>
    (decimalInteger significand exponent).bind notNegative
  | .number _ => .error .infinite
  | .bool value => .ok value.toNat
  | .string text => (textInteger text).bind notNegative
  | _ => .error .noInteger

def offWords : List Text :=
  ["0".toList,"off".toList,"f".toList,"false".toList,"n".toList,"no".toList]

def onWords : List Text :=
  ["1".toList,"on".toList,"t".toList,"true".toList,"y".toList,"yes".toList]

def integerFlag (value : Int) : Except Complaint Bool :=
  if value = 0 then .ok false else if value = 1 then .ok true else .error .noFlagText

def flagOf : Json → Except Complaint Bool
  | .bool value => .ok value
  | .number (.integer value) =>
    if leastWord ≤ value && value ≤ greatestWord then integerFlag value else .error .noFlag
  | .number (.decimal significand exponent) =>
    match decimalInteger significand exponent with
    | .ok value => integerFlag value
    | .error _ => .error .noFlag
  | .string text =>
    let word := text.map Char.toLower
    if offWords.contains word then .ok false
    else if onWords.contains word then .ok true
    else .error .noFlagText
  | _ => .error .noFlag

def fieldOf {α : Type} (read : Json → Except Complaint α) (absent : Except Complaint α) (key : Text)
    (fields : List (Text × Json)) : Except Issue α :=
  let given := match Json.field? fields key with
    | some value => read value
    | none => absent
  given.mapError fun complaint => ⟨[.field key],complaint⟩

def issueOf {α : Type} : Except Issue α → List Issue
  | .ok _ => []
  | .error issue => [issue]

def ofFields (fields : List (Text × Json)) : Except (List Issue) Token :=
  let fragment := fieldOf fragmentOf (.error .missing) Key.fragment fields
  let position := fieldOf positionOf (.error .missing) Key.position fields
  let isEnd := fieldOf flagOf (.ok false) Key.isEnd fields
  let isArrayIndex := fieldOf flagOf (.ok false) Key.isArrayIndex fields
  match fragment,position,isEnd,isArrayIndex with
  | .ok fragment,.ok position,.ok isEnd,.ok isArrayIndex =>
    .ok ⟨fragment,position,isEnd,isArrayIndex⟩
  | _,_,_,_ =>
    .error (issueOf fragment ++ issueOf position ++ issueOf isEnd ++ issueOf isArrayIndex)

def ofJson (source : Source) : Json → Except (List Issue) Token
  | .object fields => ofFields fields
  | _ => .error [⟨[],.noToken source⟩]

def gather : List (Except (List Issue) Token) → Except (List Issue) (List Token)
  | [] => .ok []
  | first :: rest =>
    match first,gather rest with
    | .ok token,.ok tokens => .ok (token :: tokens)
    | .ok _,.error issues => .error issues
    | .error issues,.ok _ => .error issues
    | .error issues,.error later => .error (issues ++ later)

def listOfJson (source : Source) : Json → Except (List Issue) (List Token)
  | .array items =>
    gather (items.mapIdx fun index item =>
      (ofJson source item).mapError (List.map (Issue.within (.item index))))
  | _ => .error [⟨[],.noList source⟩]

def read (text : Text) : Except (List Issue) Token :=
  match Json.document? text with
  | some json => ofJson .text json
  | none => .error [⟨[],.unreadable⟩]

def readList (text : Text) : Except (List Issue) (List Token) :=
  match Json.document? text with
  | some json => listOfJson .text json
  | none => .error [⟨[],.unreadable⟩]

-- Numbers fragments whose text and flag are still unchecked. The first token that
-- cannot be made ends it, with its own issues.
def ofUnchecked (pairs : List (Json × Json)) : Except (List Issue) (List Token) :=
  (pairs.mapIdx fun position pair =>
    ofFields [(Key.fragment,pair.1),(Key.position,.ofNat position),
      (Key.isEnd,.bool (position + 1 == pairs.length)),(Key.isArrayIndex,pair.2)]).mapM id

end PathExpr.Token
