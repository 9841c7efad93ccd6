namespace PathExpr

-- A text is its sequence of code points: every length, index and cut counts those.
abbrev Text := List Char

namespace Text

def padRight (width : Nat) (text : Text) : Text :=
  text ++ List.replicate (width - text.length) ' '

def padZeros (width : Nat) (digits : Text) : Text :=
  List.replicate (width - digits.length) '0' ++ digits

def ofNat (n : Nat) : Text := Nat.toDigits 10 n

def ofInt : Int → Text
  | .ofNat n => ofNat n
  | .negSucc n => '-' :: ofNat (n+1)

def trim (drops : Char → Bool) (text : Text) : Text :=
  ((text.dropWhile drops).reverse.dropWhile drops).reverse

-- Copies a text with every occurrence of `old`, taken left to right without
-- overlap, turned into `new`. The number counts the characters of an occurrence
-- that still have to be passed over.
def replaceFrom (old new : Text) : Nat → Text → Text
  | _,[] => []
  | passing+1,_ :: rest => replaceFrom old new passing rest
  | 0,c :: rest =>
    if old.isPrefixOf (c :: rest) then new ++ replaceFrom old new (old.length-1) rest
    else c :: replaceFrom old new 0 rest

def replaceAll (old new text : Text) : Text := replaceFrom old new 0 text

def settle (pass : Text → Text) (text : Text) : Text :=
  let next := pass text
  if next.length < text.length then settle pass next else text
termination_by text.length

end Text
end PathExpr
