import PathExpr.Admission
import PathExpr.Scan
import PathExpr.Token

namespace PathExpr

structure TokenizedPath where
  path : Text
  tokens : List Token
deriving DecidableEq

-- What a tokenization leaves in the debug trace. A fragment is recorded with the
-- index behind it, a refusal with the path it blames.
inductive Event where
  | fragment (text : Text) (behind : Nat) (path : Text)
  | rejected (path : Text) (fault : Fault)
deriving DecidableEq

namespace Event

def ofMark (path : Text) (mark : Mark) : Event :=
  .fragment mark.fragment.text (path.length - mark.rest.length) path

def message : Event → Text
  | fragment text behind path =>
    "fragment ".toList ++ text.literal ++ " ends at index ".toList ++ Text.ofNat behind ++
      " of ".toList ++ path.literal
  | rejected path fault =>
    "rejected path ".toList ++ path.literal ++ ": ".toList ++ fault.message path

end Event

structure Traced (α : Type) where
  events : List Event
  outcome : Except Failure α

namespace TokenizedPath

def stopped (events : List Event) (failure : Failure) : Traced TokenizedPath :=
  match failure with
  | .unusable path fault => ⟨events ++ [.rejected path fault],.error failure⟩
  | _ => ⟨events,.error failure⟩

def scanned (path : Text) : Traced TokenizedPath :=
  let scan := Scan.of path
  let events := scan.marks.map (Event.ofMark path)
  match scan.halt with
  | none => ⟨events,.ok ⟨path,Token.ofFragments scan.fragments⟩⟩
  | some halt => stopped events (halt.failure path)

-- The limit comes first and leaves no trace, calls are looked for in the path as
-- given, and the scan reads the path in use.
def traced (options : Options) (path : Text) : Traced TokenizedPath :=
  match options.lengthFailure? path with
  | some failure => ⟨[],.error failure⟩
  | none =>
    match options.callFault? path with
    | some fault => stopped [] (.unusable path fault)
    | none => scanned (options.used path)

end TokenizedPath

def tokenize (options : Options) (path : Text) : Except Failure TokenizedPath :=
  (TokenizedPath.traced options path).outcome

namespace TokenizedPath

def fragments (tokenized : TokenizedPath) : List Text := tokenized.tokens.map Token.fragment

def size (tokenized : TokenizedPath) : Nat := tokenized.tokens.length

def removeLast (tokenized : TokenizedPath) : Except Failure (Token × TokenizedPath) :=
  match tokenized.tokens.getLast? with
  | none => .error .noTokenLeft
  | some token => .ok (token,{tokenized with tokens := tokenized.tokens.dropLast})

def summary (tokenized : TokenizedPath) : Text :=
  "PathTokenizer(".toList ++ tokenized.path.literal ++ ", size=".toList ++
    Text.ofNat tokenized.size ++ [')']

end TokenizedPath

def splitPath (options : Options) (path : Text) : Except Failure (List Text) :=
  (tokenize options path).map TokenizedPath.fragments

end PathExpr
