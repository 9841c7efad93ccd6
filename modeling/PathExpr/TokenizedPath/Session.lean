import PathExpr.TokenTable

namespace PathExpr.TokenizedPath

inductive Command where
  | path
  | fragments
  | tokens
  | size
  | table
  | summary
  | removeLast

inductive Reply where
  | text (text : Text)
  | fragments (fragments : List Text)
  | tokens (tokens : List Token)
  | size (size : Nat)
  | removed (token : Token)
  | failed (failure : Failure)
deriving DecidableEq

def perform (tokenized : TokenizedPath) : Command → Reply × TokenizedPath
  | .path => (.text tokenized.path,tokenized)
  | .fragments => (.fragments tokenized.fragments,tokenized)
  | .tokens => (.tokens tokenized.tokens,tokenized)
  | .size => (.size tokenized.size,tokenized)
  | .table => (.text (TokenTable.text tokenized),tokenized)
  | .summary => (.text tokenized.summary,tokenized)
  | .removeLast =>
    match tokenized.removeLast with
    | .ok (token,after) => (.removed token,after)
    | .error failure => (.failed failure,tokenized)

def session (tokenized : TokenizedPath) : List Command → List Reply × TokenizedPath
  | [] => ([],tokenized)
  | command :: later =>
    let (reply,after) := tokenized.perform command
    let (replies,last) := after.session later
    (reply :: replies,last)

theorem perform_keeps (tokenized : TokenizedPath) (command : Command) :
    (tokenized.perform command).2.path = tokenized.path ∧
      (tokenized.perform command).2.tokens <+: tokenized.tokens := by
  cases command with
  | removeLast =>
    simp only [perform,removeLast]
    split
    · rename_i removed
      split at removed
      · cases removed
      · cases removed; exact ⟨rfl,List.dropLast_prefix _⟩
    · exact ⟨rfl,List.prefix_refl _⟩
  | _ => exact ⟨rfl,List.prefix_refl _⟩

end PathExpr.TokenizedPath
