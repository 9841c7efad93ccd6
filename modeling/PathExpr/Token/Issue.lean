import PathExpr.Text

namespace PathExpr.Token

-- What was handed in. It only decides how an expected container is called.
inductive Source where
  | text
  | value
deriving DecidableEq

inductive Complaint where
  | unreadable
  | missing
  | noString
  | noInteger
  | noIntegerText
  | tooLarge
  | fractional
  | infinite
  | negative
  | noFlag
  | noFlagText
  | noToken (source : Source)
  | noList (source : Source)
  | frozen
deriving DecidableEq

inductive Step where
  | field (key : Text)
  | item (index : Nat)
deriving DecidableEq

structure Issue where
  place : List Step
  complaint : Complaint
deriving DecidableEq

namespace Complaint

def code : Complaint → Text
  | unreadable => "json_invalid".toList
  | missing => "missing".toList
  | noString => "string_type".toList
  | noInteger => "int_type".toList
  | noIntegerText => "int_parsing".toList
  | tooLarge => "int_parsing_size".toList
  | fractional => "int_from_float".toList
  | infinite => "finite_number".toList
  | negative => "greater_than_equal".toList
  | noFlag => "bool_type".toList
  | noFlagText => "bool_parsing".toList
  | noToken _ => "model_type".toList
  | noList _ => "list_type".toList
  | frozen => "frozen_instance".toList

def message? : Complaint → Option Text
  | unreadable => none
  | missing => some "Field required".toList
  | noString => some "Input should be a valid string".toList
  | noInteger => some "Input should be a valid integer".toList
  | noIntegerText =>
    some "Input should be a valid integer, unable to parse string as an integer".toList
  | tooLarge =>
    some "Unable to parse input string as an integer, exceeded maximum size".toList
  | fractional =>
    some "Input should be a valid integer, got a number with a fractional part".toList
  | infinite => some "Input should be a finite number".toList
  | negative => some "Input should be greater than or equal to 0".toList
  | noFlag => some "Input should be a valid boolean".toList
  | noFlagText => some "Input should be a valid boolean, unable to interpret input".toList
  | noToken .text => some "Input should be an object".toList
  | noToken .value =>
    some "Input should be a valid dictionary or instance of PathToken".toList
  | noList .text => some "Input should be a valid array".toList
  | noList .value => some "Input should be a valid list".toList
  | frozen => some "Instance is frozen".toList

end Complaint

namespace Issue

def within (step : Step) (issue : Issue) : Issue := ⟨step :: issue.place,issue.complaint⟩

-- A token never changes, so that no field of one can be set, whatever its name.
def frozenField (key : Text) : Issue := ⟨[.field key],.frozen⟩

end Issue
end PathExpr.Token
