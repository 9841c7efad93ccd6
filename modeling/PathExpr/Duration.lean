import PathExpr.Number.Binary64

-- A duration in the smallest unit that keeps it under four digits before the point.
namespace PathExpr.Duration

def units : List (Nat × Text) :=
  [(1000000000,"ns".toList),(1000000,"µs".toList),(1000,"ms".toList)]

def textIn (seconds : Binary64) : List (Nat × Text) → Text
  | [] => seconds.fixed 3 ++ " s".toList
  | (scale,name) :: coarser =>
    let count := seconds.times scale
    if count.lessThan 1000 then count.fixed 1 ++ ' ' :: name else textIn seconds coarser

def text (seconds : Binary64) : Text := textIn seconds units

end PathExpr.Duration
