import PathExpr.TokenizedPath

namespace PathExpr.TokenTable

def rule : Text := List.replicate 75 '-'

-- One wide column and three narrow ones. A fragment wider than its column pushes
-- the others on.
def row (fragment root ending array : Text) : Text :=
  Text.padRight 50 fragment ++ Text.padRight 10 root ++ Text.padRight 10 ending ++
    Text.padRight 10 array

def flag : Bool → Text
  | true => "true".toList
  | false => "false".toList

def tokenRow (token : Token) : Text :=
  row token.fragment (flag token.isRoot) (flag token.isEnd) (flag token.isArrayIndex)

def rows (tokenized : TokenizedPath) : List Text :=
  [rule,"PATH: ".toList ++ tokenized.path,
    row "Fragment".toList "Root".toList "End".toList "Array".toList,rule] ++
  tokenized.tokens.map tokenRow

def text (tokenized : TokenizedPath) : Text := (rows tokenized).flatMap (· ++ ['\n'])

end PathExpr.TokenTable
