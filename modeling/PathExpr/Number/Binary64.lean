import PathExpr.Number.Rounding
import PathExpr.Text

-- Double precision numbers in exact arithmetic. A finite one is a natural number
-- of the smallest units there are, each 2 to the power -1074, with a sign.
namespace PathExpr

inductive Binary64 where
  | nan
  | infinite (negative : Bool)
  | finite (negative : Bool) (units : Nat)
deriving DecidableEq

namespace Binary64

def twoTo (exponent : Nat) : Nat := Nat.pow 2 exponent

def tenTo (exponent : Nat) : Nat := Nat.pow 10 exponent

def one : Nat := twoTo 1074

-- Below this every number of units has its own double, above it 53 bits remain.
def exactUnits : Nat := twoTo 53

def overflowUnits : Nat := twoTo (1024 + 1074)

def ofBits (word : Nat) : Binary64 :=
  let negative := word / twoTo 63 % 2 == 1
  let exponent := word / twoTo 52 % twoTo 11
  let fraction := word % twoTo 52
  if exponent = 2047 then if fraction = 0 then infinite negative else nan
  else if exponent = 0 then finite negative fraction
  else finite negative ((twoTo 52 + fraction) * twoTo (exponent - 1))

def nearest (negative : Bool) (numerator denominator : Nat) : Binary64 :=
  let whole := numerator / denominator
  let step := if whole < exactUnits then 1 else twoTo (whole.log2 - 52)
  let units := Number.roundDiv numerator (denominator * step) * step
  if units < overflowUnits then finite negative units else infinite negative

-- Far beyond either end of the range the digits no longer matter.
def ofDecimal (significand exponent : Int) : Binary64 :=
  let negative := significand < 0
  let digits := (Text.ofNat significand.natAbs).length
  if significand = 0 then finite false 0
  else if 400 < exponent + digits then infinite negative
  else if exponent + digits < -400 then finite negative 0
  else if 0 ≤ exponent then
    nearest negative (significand.natAbs * tenTo exponent.toNat * one) 1
  else nearest negative (significand.natAbs * one) (tenTo (-exponent).toNat)

def times (factor : Nat) : Binary64 → Binary64
  | finite negative units => nearest negative (units * factor) 1
  | other => other

def lessThan (bound : Nat) : Binary64 → Bool
  | nan => false
  | infinite negative => negative
  | finite negative units => negative || units < bound * one

def integer? : Binary64 → Option Int
  | finite negative units =>
    if units % one = 0 then
      some (if negative then -((units / one : Nat) : Int) else ((units / one : Nat) : Int))
    else none
  | _ => none

def isFinite : Binary64 → Bool
  | finite .. => true
  | _ => false

def signText (negative : Bool) : Text := if negative then ['-'] else []

-- A number of places behind the point, a tie going to the even last digit. The
-- sign stays on what is rounded to zero.
def fixed (places : Nat) : Binary64 → Text
  | nan => "nan".toList
  | infinite negative => signText negative ++ "inf".toList
  | finite negative units =>
    let scaled := Number.roundDiv (units * tenTo places) one
    signText negative ++ Text.ofNat (scaled / tenTo places) ++
      '.' :: Text.padZeros places (Text.ofNat (scaled % tenTo places))

end Binary64
end PathExpr
