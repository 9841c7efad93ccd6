import PathExpr.Proofs.Cursor

-- The flat machine as a left fold over a path: the fragments so far, how many
-- characters they and what follows them took, and the mode.
namespace PathExpr

structure Machine where
  fragments : List Fragment
  read : Nat
  mode : Mode
deriving DecidableEq

namespace Machine

def start : Machine := ⟨[],0,.top⟩

def feed (machine : Machine) (c : Char) : Except Fault Machine :=
  match machine.mode.step c with
  | none => .error (.unexpected c machine.read)
  | some (pieces,next) =>
    .ok ⟨machine.fragments ++ pieces.map Piece.fragment,machine.read + 1,next⟩

def finish (path : Text) (machine : Machine) : Except Failure (List Fragment) :=
  match machine.mode.finish with
  | .ok pieces => .ok (machine.fragments ++ pieces.map Piece.fragment)
  | .error halt => .error (halt.failure path)

def split (path : Text) : Except Failure (List Fragment) :=
  match path.foldlM feed start with
  | .ok machine => machine.finish path
  | .error fault => .error (.unusable path fault)

-- What the fold still has to do, told by what the machine makes of the rest. Only
-- the count of characters read ties the two to the same path.
theorem foldlM_feed (path rest : Text) (machine : Machine)
    (counted : machine.read + rest.length = path.length) :
    (match rest.foldlM feed machine with
      | .ok last => last.finish path
      | .error fault => .error (.unusable path fault)) =
    match machine.mode.run rest with
      | .ok pieces => .ok (machine.fragments ++ pieces.map Piece.fragment)
      | .error halt => .error (halt.failure path) := by
  induction rest generalizing machine with
  | nil => rfl
  | cons c rest ih =>
    cases stepped : machine.mode.step c with
    | none =>
      have place : path.length - (c :: rest).length = machine.read := by omega
      rw [Mode.run_refused rest stepped,List.foldlM_cons]
      simp only [feed,stepped,Halt.failure,place]
      rfl
    | some next =>
      obtain ⟨pieces,next⟩ := next
      have fed : feed machine c =
          .ok ⟨machine.fragments ++ pieces.map Piece.fragment,machine.read + 1,next⟩ := by
        rw [feed,stepped]
      rw [Mode.run_cons rest stepped,List.foldlM_cons,fed]
      refine (ih _ ?_).trans ?_
      · simp only [List.length_cons] at counted ⊢; omega
      · cases next.run rest with
        | error halt => rfl
        | ok later => simp

end Machine

theorem Cursor.split_fold (path : Text) : (Cursor.start path).split.1 = Machine.split path := by
  have folded := Machine.foldlM_feed path path .start (by simp [Machine.start])
  rw [Machine.split,folded,Cursor.split_outcome,Mode.outcome]
  simp only [Machine.start]
  cases Mode.run .top path <;> rfl

example : Machine.split "$...a".toList = .error (.unusable "$...a".toList (.unexpected '.' 3)) := rfl

end PathExpr
