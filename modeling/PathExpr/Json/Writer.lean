import PathExpr.Json

-- The written form of a value: no blanks, the shortest escapes, and every other
-- character from U+0020 on as it is.
namespace PathExpr.Json

def escape (c : Char) : Text :=
  if c = '"' || c = '\\' then ['\\',c]
  else if c = '\x08' then ['\\','b']
  else if c = '\t' then ['\\','t']
  else if c = '\n' then ['\\','n']
  else if c = '\x0c' then ['\\','f']
  else if c = '\r' then ['\\','r']
  else if c.toNat < 0x20 then '\\' :: 'u' :: Text.padZeros 4 (Nat.toDigits 16 c.toNat)
  else [c]

def quote (text : Text) : Text := '"' :: (text.flatMap escape ++ ['"'])

def writeNumeral : Numeral → Text
  | .integer value => Text.ofInt value
  | .decimal significand exponent => Text.ofInt significand ++ 'e' :: Text.ofInt exponent
  | .nan => "NaN".toList
  | .infinite false => "Infinity".toList
  | .infinite true => "-Infinity".toList

mutual
def write : Json → Text
  | null => ['n','u','l','l']
  | bool true => ['t','r','u','e']
  | bool false => ['f','a','l','s','e']
  | number numeral => writeNumeral numeral
  | string text => quote text
  | array items => '[' :: (writeItems items ++ [']'])
  | object fields => '\x7b' :: (writeFields fields ++ ['\x7d'])
def writeItems : List Json → Text
  | [] => []
  | [item] => write item
  | item :: items => write item ++ ',' :: writeItems items
def writeFields : List (Text × Json) → Text
  | [] => []
  | [(key,value)] => quote key ++ ':' :: write value
  | (key,value) :: fields => quote key ++ ':' :: (write value ++ ',' :: writeFields fields)
end

end PathExpr.Json
