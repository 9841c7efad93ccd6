-- The quotient of two naturals as the nearest natural, a tie going to the even one.
namespace PathExpr.Number

def roundDiv (numerator denominator : Nat) : Nat :=
  let quotient := numerator / denominator
  let twice := 2 * (numerator % denominator)
  if twice < denominator then quotient
  else if denominator < twice then quotient + 1
  else quotient + quotient % 2

end PathExpr.Number
