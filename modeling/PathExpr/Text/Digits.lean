import PathExpr.Text.Blank

namespace PathExpr.Text

def digits (text : Text) : Text × Text := (text.takeWhile Char.isDigit,text.dropWhile Char.isDigit)

def valueOf (digits : Text) : Nat := Nat.ofDigitChars 10 digits 0

def signed (negative : Bool) (magnitude : Nat) : Int := if negative then -magnitude else magnitude

def sign (plus : Bool) : Text → Bool × Text
  | '-' :: rest => (true,rest)
  | '+' :: rest => (false,if plus then rest else '+' :: rest)
  | text => (false,text)

def isGrouped : Text → Bool
  | [] => false
  | [c] => c.isDigit
  | c :: '_' :: rest => c.isDigit && isGrouped rest
  | c :: rest => c.isDigit && isGrouped rest

def grouped? (text : Text) : Option Text :=
  if isGrouped text then some (text.filter Char.isDigit) else none

def isZeroFraction : Text → Bool
  | [] => true
  | _ :: zeros => !zeros.isEmpty && zeros.all (· == '0')

def isWhole (digits : Text) : Bool := digits.head? ≠ some '0' || digits.length = 1

def longest : Nat := 4300

def isOverlong (negative : Bool) (digits : Text) : Bool :=
  longest < negative.toNat + digits.length

def startsOverlong (text : Text) : Bool :=
  let (negative,rest) := sign false text
  isWhole (digits rest).1 && isOverlong negative (digits rest).1

def isPadding (c : Char) : Bool := c == '0' || c == '_'

def behindMinus? (text : Text) : Option (Bool × Text) :=
  ((grouped? text).filter isWhole).map fun digits => (true,digits)

-- The sign and the digits that count. Of padding alone the last character counts. A
-- minus that is not in front may stand behind the padding, with a low line behind it
-- but no more padding.
def behindPadding? (negative : Bool) (padding : Text) : Text → Option (Bool × Text)
  | [] => if padding.getLast? = some '0' then some (negative,['0']) else none
  | '-' :: '_' :: rest => if negative then none else behindMinus? rest
  | '-' :: rest => if negative then none else behindMinus? rest
  | rest => (grouped? rest).map fun digits => (negative,digits)

def significant? (negative : Bool) (whole : Text) : Option (Bool × Text) :=
  if whole.head? = some '0' then
    behindPadding? negative (whole.takeWhile isPadding) (whole.dropWhile isPadding)
  else (grouped? whole).map fun digits => (negative,digits)

def integer? (text : Text) : Option Int :=
  let (negative,body) := sign true (trim isWhiteSpace text)
  if isZeroFraction (body.dropWhile (· != '.')) then
    match significant? negative (body.takeWhile (· != '.')) with
    | some (negative,digits) =>
      if isOverlong negative digits then none else some (signed negative (valueOf digits))
    | none => none
  else none

theorem digits_le (text : Text) : (digits text).2.length ≤ text.length :=
  (List.dropWhile_suffix Char.isDigit).length_le

theorem digits_shorter {text : Text} (present : (digits text).1.isEmpty = false) :
    (digits text).2.length < text.length := by
  have both := congrArg List.length (List.takeWhile_append_dropWhile (p:=Char.isDigit) (l:=text))
  have positive := List.length_pos_iff.mpr (List.isEmpty_eq_false_iff.mp present)
  simp only [List.length_append] at both
  simp only [digits] at positive ⊢
  omega

theorem sign_le (plus : Bool) (text : Text) : (sign plus text).2.length ≤ text.length := by
  unfold sign
  split
  · exact Nat.le_succ _
  · cases plus
    · exact Nat.le_refl _
    · exact Nat.le_succ _
  · exact Nat.le_refl _

theorem valueOf_ofNat (n : Nat) : valueOf (ofNat n) = n :=
  Nat.ofDigitChars_toDigits (by decide) (by decide)

end PathExpr.Text
