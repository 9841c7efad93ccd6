import PathExpr.Scan

-- A session with a cursor: commands one after the other, each carried out where
-- the one before left the cursor, whether that one succeeded or not.
namespace PathExpr.Cursor

inductive Command where
  | split
  | extract (boundary : Boundary)
  | group
  | rejectNext (refused : List Text)
  | skip (mark : Text)
  | index

inductive Reply where
  | fragments (fragments : List Fragment)
  | text (text : Text)
  | passed
  | index (index : Nat)
  | failed (failure : Failure)
deriving DecidableEq

def replied {α : Type} (reply : α → Reply) (run : Except Failure α × Cursor) : Reply × Cursor :=
  match run with
  | (.ok value,after) => (reply value,after)
  | (.error failure,after) => (.failed failure,after)

def perform (cursor : Cursor) : Command → Reply × Cursor
  | .split => replied .fragments cursor.split
  | .extract boundary => replied .text (cursor.extract boundary)
  | .group => replied .text cursor.group
  | .rejectNext refused => replied (fun _ => .passed) (cursor.rejectNext refused)
  | .skip mark => (.index (cursor.skip mark).index,cursor.skip mark)
  | .index => (.index cursor.index,cursor)

def session (cursor : Cursor) : List Command → List Reply × Cursor
  | [] => ([],cursor)
  | command :: later =>
    let (reply,after) := cursor.perform command
    let (replies,last) := after.session later
    (reply :: replies,last)

theorem replied_cursor {α : Type} (reply : α → Reply) (run : Except Failure α × Cursor) :
    (replied reply run).2 = run.2 := by
  rcases run with ⟨outcome,after⟩
  cases outcome <;> rfl

theorem perform_onward (cursor : Cursor) (command : Command) :
    (cursor.perform command).2.text = cursor.text ∧ (cursor.perform command).2.rest <:+ cursor.rest := by
  cases command with
  | index => exact ⟨rfl,List.suffix_refl _⟩
  | skip => exact ⟨run_text _ _ _,run_suffix _ _ _⟩
  | split => simp only [perform,replied_cursor]; exact ⟨run_text _ _ _,run_suffix _ _ _⟩
  | extract => simp only [perform,replied_cursor]; exact ⟨run_text _ _ _,run_suffix _ _ _⟩
  | group => simp only [perform,replied_cursor]; exact ⟨run_text _ _ _,run_suffix _ _ _⟩
  | rejectNext => simp only [perform,replied_cursor]; exact ⟨run_text _ _ _,run_suffix _ _ _⟩

end PathExpr.Cursor
