import PathExpr.Proofs.Mode

namespace PathExpr.Cursor

theorem eq_of_rest {one other : Cursor} (text : one.text = other.text) (rest : one.rest = other.rest) :
    one = other := by
  cases one
  cases other
  cases text
  cases rest
  rfl

section Run

variable {α : Type} {cursor after : Cursor} {read : Reader α} {value : α} {rest : Text} {halt : Halt}

theorem run_ok (onward : read.Onward) (taken : read cursor.rest = .ok (value,rest)) :
    cursor.run read onward = (.ok value,cursor.moveTo rest (onward.value taken)) := by
  unfold run
  split
  · rename_i found; cases taken.symm.trans found; rfl
  · rename_i found; cases taken.symm.trans found

theorem run_error (onward : read.Onward) (halted : read cursor.rest = .error halt) :
    cursor.run read onward = (.error (halt.failure cursor.text),cursor.moveTo halt.rest (onward.halt halted)) := by
  unfold run
  split
  · rename_i found; cases halted.symm.trans found
  · rename_i found; cases halted.symm.trans found; rfl

theorem run_taken (onward : read.Onward) (taken : read cursor.rest = .ok (value,rest)) :
    ∃ after, cursor.run read onward = (.ok value,after) ∧ after.text = cursor.text ∧ after.rest = rest :=
  ⟨_,run_ok onward taken,rfl,rfl⟩

theorem run_halted (onward : read.Onward) (halted : read cursor.rest = .error halt) :
    ∃ after, cursor.run read onward = (.error (halt.failure cursor.text),after) ∧
      after.text = cursor.text ∧ after.rest = halt.rest :=
  ⟨_,run_error onward halted,rfl,rfl⟩

theorem run_ok_at (onward : read.Onward) (taken : read cursor.rest = .ok (value,rest))
    (text : after.text = cursor.text) (left : after.rest = rest) :
    cursor.run read onward = (.ok value,after) := by
  rw [run_ok onward taken]
  exact congrArg (Prod.mk _) (eq_of_rest text.symm left.symm)

theorem run_error_at (onward : read.Onward) (halted : read cursor.rest = .error halt)
    (text : after.text = cursor.text) (left : after.rest = halt.rest) :
    cursor.run read onward = (.error (halt.failure cursor.text),after) := by
  rw [run_error onward halted]
  exact congrArg (Prod.mk _) (eq_of_rest text.symm left.symm)

end Run

variable {here : Cursor}

theorem consume_cons {c : Char} {rest : Text} (unread : here.rest = c :: rest) :
    ∃ after, here.consume = (.ok c,after) ∧ after.text = here.text ∧ after.rest = rest := by
  have taken : Reading.next here.rest = .ok (c,rest) := by rw [unread]; rfl
  exact run_taken Reading.next_onward taken

theorem peek_cons {c : Char} {rest : Text} (unread : here.rest = c :: rest) : here.peek = .ok c := by
  obtain ⟨after,consumed,_⟩ := consume_cons unread
  rw [peek,consumed]

theorem isEmpty_nil (unread : here.rest = []) : here.isEmpty = true := by
  rw [isEmpty,unread]
  rfl

theorem isEmpty_cons {c : Char} {rest : Text} (unread : here.rest = c :: rest) : ¬here.isEmpty = true := by
  rw [isEmpty,unread]
  exact Bool.false_ne_true

theorem split_outcome (path : Text) :
    (start path).split.1 = (Mode.outcome path).mapError (Halt.failure path) := by
  rw [Cursor.split,run_outcome]
  simp only [start]
  rw [Mode.split_run]
  cases Mode.outcome path <;> rfl

theorem split_ran {path : Text} {pieces : List Piece} (ran : Mode.run .top path = .ok pieces) :
    (start path).split.1 = .ok (pieces.map Piece.fragment) := by
  rw [split_outcome,Mode.outcome,ran]
  rfl

theorem split_halted {path : Text} {halt : Halt} (halted : Mode.run .top path = .error halt) :
    (start path).split.1 = .error (halt.failure path) := by
  rw [split_outcome,Mode.outcome,halted]
  rfl

theorem split_accepted {path : Text} {fragments : List Fragment}
    (accepted : (start path).split.1 = .ok fragments) :
    ∃ pieces, Mode.run .top path = .ok pieces ∧ fragments = pieces.map Piece.fragment := by
  cases ran : Mode.run .top path with
  | error halt => rw [split_halted ran] at accepted; cases accepted
  | ok pieces => rw [split_ran ran] at accepted; cases accepted; exact ⟨pieces,rfl,rfl⟩

theorem split_failed {path : Text} {failure : Failure} (failed : (start path).split.1 = .error failure) :
    ∃ halt, Mode.run .top path = .error halt ∧ failure = halt.failure path := by
  cases ran : Mode.run .top path with
  | error halt => rw [split_halted ran] at failed; cases failed; exact ⟨halt,rfl,rfl⟩
  | ok pieces => rw [split_ran ran] at failed; cases failed

end PathExpr.Cursor
