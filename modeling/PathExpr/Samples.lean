import PathExpr.TokenizedPath

namespace PathExpr.Samples

def short : Text := "$.a".toList

def dotted : Text := "$.store.book.author.name.first".toList

def bracketed : Text := "$['store']['book'][0]['title']".toList

def filtered : Text := "$..book[?( @.price < 10 && @.category == 'fiction' )].title".toList

def escaped : Text := "$.config.a\\.b\\.c.value".toList

def numbered (i : Nat) : Text := ".k".toList ++ Text.ofNat i ++ '[' :: (Text.ofNat i ++ [']'])

def long : Text := dotted ++ (List.range 200).flatMap numbered

def all : List (Text × Text) :=
  [("short".toList,short),("dotted".toList,dotted),("bracketed".toList,bracketed),
    ("filtered".toList,filtered),("escaped".toList,escaped),("long".toList,long)]

end PathExpr.Samples
