import PathExpr.Text.Printable

namespace PathExpr.Text

-- A single quote, unless the text has single quotes and no double one.
def quoteFor (text : Text) : Char :=
  if text.contains '\'' && !text.contains '"' then '"' else '\''

def escapeCode (code : Nat) : Text :=
  if code < 0x100 then '\\' :: 'x' :: padZeros 2 (Nat.toDigits 16 code)
  else if code < 0x10000 then '\\' :: 'u' :: padZeros 4 (Nat.toDigits 16 code)
  else '\\' :: 'U' :: padZeros 8 (Nat.toDigits 16 code)

def escapeIn (quote c : Char) : Text :=
  if c = quote || c = '\\' then ['\\',c]
  else if c = '\n' then ['\\','n']
  else if c = '\r' then ['\\','r']
  else if c = '\t' then ['\\','t']
  else if isPrintable c then [c]
  else escapeCode c.toNat

def literal (text : Text) : Text :=
  let quote := quoteFor text
  quote :: (text.flatMap (escapeIn quote) ++ [quote])

def literals (texts : List Text) : Text :=
  ['['] ++ [',',' '].intercalate (texts.map literal) ++ [']']

end PathExpr.Text
