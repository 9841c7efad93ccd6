import PathExpr.Json.Writer
import PathExpr.Token

-- The wire form of tokens: one object a token, its four fields in a fixed order.
-- Whether a token is the root follows from the others and is not written.
namespace PathExpr.Token

namespace Key

def fragment : Text := "fragment".toList
def position : Text := "position".toList
def isEnd : Text := "is_end".toList
def isArrayIndex : Text := "is_array_index_token".toList

end Key

def toJson (token : Token) : Json :=
  .object [(Key.fragment,.string token.fragment),(Key.position,.ofNat token.position),
    (Key.isEnd,.bool token.isEnd),(Key.isArrayIndex,.bool token.isArrayIndex)]

def write (token : Token) : Text := token.toJson.write

def writeList (tokens : List Token) : Text := Json.write (.array (tokens.map toJson))

end PathExpr.Token
