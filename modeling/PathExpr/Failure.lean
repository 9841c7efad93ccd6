import PathExpr.Text.Literal

namespace PathExpr

-- What makes a path unusable. A function call is reported where its name ends,
-- one character in front of the parenthesis.
inductive Fault where
  | tooLong (limit : Nat)
  | functionCall (index : Nat)
  | missing (expected : Text)
  | unclosedGroup
  | unexpected (char : Char) (index : Nat)
deriving DecidableEq

-- An unusable path is reported with the text that was being read. The other
-- cases blame the caller and not a path.
inductive Failure where
  | unusable (path : Text) (fault : Fault)
  | limitNotPositive
  | endOfInput (index : Nat)
  | noTokenLeft
deriving DecidableEq

namespace Fault

def message (path : Text) : Fault → Text
  | tooLong limit =>
    "Path is longer than ".toList ++ Text.ofNat limit ++ " characters: ".toList ++ path.literal
  | functionCall index =>
    "Invalid path: ".toList ++ path.literal ++ " (unsupported call syntax ".toList ++
      Text.literal ((path.drop index).take 2) ++ " at index ".toList ++ Text.ofNat index ++ [')']
  | missing expected =>
    "Path is incomplete: ".toList ++ path.literal ++ " (expected ".toList ++
      expected.literal ++ [')']
  | unclosedGroup =>
    "Path is incomplete: ".toList ++ path.literal ++ " (unclosed ".toList ++
      Text.literal ['('] ++ [')']
  | unexpected char index =>
    "Char: ".toList ++ [char] ++ " at index ".toList ++ Text.ofNat index ++
      " is not valid in ".toList ++ path.literal

def className : Fault → Text
  | tooLong _ => "InvalidPathError".toList
  | functionCall _ => "MalformedPathSyntaxError".toList
  | missing _ | unclosedGroup => "IncompletePathError".toList
  | unexpected .. => "UnexpectedCharacterError".toList

end Fault

namespace Failure

def message : Failure → Text
  | unusable path fault => fault.message path
  | limitNotPositive => "max_length must be > 0".toList
  | endOfInput index => "No character left at index ".toList ++ Text.ofNat index
  | noTokenLeft => "No path tokens left to remove".toList

end Failure
end PathExpr
