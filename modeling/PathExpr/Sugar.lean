import PathExpr.Text.Blank

-- The sugar of the notation: blanks beside quotes and parentheses, sigils, the
-- wrapper of a filter, the brackets and quotes of a key. Every rule deletes
-- characters, none adds or moves one.
namespace PathExpr.Sugar

def collapse (mark text : Text) : Text :=
  let closed := Text.settle (Text.replaceAll (mark ++ [' ']) mark) text
  Text.settle (Text.replaceAll (' ' :: mark) mark) closed

def dropSigil (sigil text : Text) : Text :=
  if (sigil ++ [' ']).isPrefixOf text then text.tail.dropWhile (· == ' ') else text

def unwrapFilter (text : Text) : Text :=
  let bare := dropSigil ['?'] text
  if ['?','('].isPrefixOf bare && [')'].isSuffixOf bare then (bare.drop 2).dropLast else bare

-- A key in brackets and quotes has room for one character besides the four marks.
def isQuotedKey (text : Text) : Bool :=
  5 ≤ text.length && ['[','\''].isPrefixOf text

def quotedKey (text : Text) : Text := Text.strip (text.drop 2).dropLast.dropLast

def pass (text : Text) : Text :=
  dropSigil ['@'] (unwrapFilter (collapse ['('] (collapse [')'] (collapse ['\''] text))))

-- Passes until nothing changes. A quoted key ends the cleaning with its content,
-- which is literal and gets no further pass.
def clean (raw : Text) : Text :=
  let bare := pass raw
  if isQuotedKey bare then quotedKey bare
  else
    let next := Text.strip bare
    if next.length < raw.length then clean next else next
termination_by raw.length

-- A fragment that still has its brackets: a quoted key takes them along, any
-- other content is cleaned without them.
def cleanBracketed (raw : Text) : Text :=
  if isQuotedKey (collapse ['\''] raw) then clean raw else clean raw.tail.dropLast

end PathExpr.Sugar
