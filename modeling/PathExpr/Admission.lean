import PathExpr.Failure

-- What a path has to pass as a whole before it is scanned, and the root that a
-- relative path is given.
namespace PathExpr

namespace Admission

-- Behind the filter sigil or an operator a parenthesis opens a group.
def opensGroup (before : Char) : Bool := ['?','+','=','-','*','/','!'].contains before

def isCall (neighbours : Char × Char) : Bool :=
  neighbours.2 == '(' && !opensGroup neighbours.1

def callee? (path : Text) : Option Nat := (path.zip path.tail).findIdx? isCall

def findCall? (path : Text) : Option Nat := (callee? path).map (· + 1)

def callFault? (path : Text) : Option Fault := (callee? path).map .functionCall

def rooted (path : Text) : Text :=
  if ['$'].isPrefixOf path then path else '$' :: '.' :: path

end Admission

structure Options where
  autoRoot : Bool := true
  checkCalls : Bool := true
  maxLength : Option Int := none
deriving DecidableEq

namespace Options

def lengthFailure? (options : Options) (path : Text) : Option Failure :=
  match options.maxLength with
  | none => none
  | some limit =>
    if limit ≤ 0 then some .limitNotPositive
    else if limit < path.length then some (.unusable path (.tooLong limit.toNat))
    else none

def callFault? (options : Options) (path : Text) : Option Fault :=
  if options.checkCalls then Admission.callFault? path else none

def used (options : Options) (path : Text) : Text :=
  if options.autoRoot then Admission.rooted path else path

end Options
end PathExpr
