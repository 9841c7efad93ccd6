import PathExpr.Proofs.Cursor
import PathExpr.Proofs.Mode.Reads

-- A path in two parts. Where the second starts a new segment, the first leaves
-- nothing behind that would change how it is read; and between two fragments blanks
-- make no difference.
namespace PathExpr

namespace Fault

def moved (distance : Nat) : Fault → Fault
  | functionCall index => .functionCall (distance + index)
  | unexpected char index => .unexpected char (distance + index)
  | fault => fault

end Fault

def Failure.moved (path : Text) (distance : Nat) : Failure → Failure
  | unusable _ fault => .unusable path (fault.moved distance)
  | endOfInput index => .endOfInput (distance + index)
  | failure => failure

theorem Halt.failure_moved {halt : Halt} {back : Text} (front : Text) (within : halt.rest <:+ back) :
    halt.failure (front ++ back) = (halt.failure back).moved (front ++ back) front.length := by
  cases halt with
  | exhausted => simp [failure,Failure.moved]
  | missing => rfl
  | unclosedGroup => rfl
  | unexpected c after =>
    have bound : (c :: after).length ≤ back.length := within.length_le
    have place : (front ++ back).length - (c :: after).length =
        front.length + (back.length - (c :: after).length) := by
      rw [List.length_append]
      omega
    simp only [failure,Failure.moved,Fault.moved,place]

namespace Mode

variable {mode : Mode} {text rest : Text}

theorem run_halt_rest {halt : Halt} (halted : run mode text = .error halt) : halt.rest <:+ text := by
  rcases run_error halted with ⟨pieces,next,_,unfinished⟩ | ⟨front,rest,pieces,rfl,_,rfl⟩
  · rcases finish_halts unfinished with rfl | rfl <;> exact List.nil_suffix
  · exact List.suffix_append front _

theorem Idle.run_top (idle : mode.Idle) (apart : mode.dots = [] ∨ rest.head? ≠ some '.') :
    run mode rest = run top rest := by
  rcases idle with rfl | rfl | rfl
  · rfl
  · rcases apart with none | single
    · cases none
    · exact run_dot rest single
  · rcases apart with none | single
    · cases none
    · exact run_descent rest single

-- What a finished mode still holds comes out when a new segment starts, just as it
-- does at the end of the text.
theorem run_resumed {last : List Piece} (finished : mode.finish = .ok last) (settled : mode.pending = false)
    (boundary : rest.head? = some '[' ∨ rest.head? = some '.' ∧ mode.dots = []) :
    run mode rest = behind last (run top rest) := by
  rcases finish_cases finished with ⟨idle,rfl⟩ | ⟨escaped,raw,rfl,rfl⟩
  · rw [behind_nil,idle.run_top]
    rcases boundary with bracket | ⟨_,none⟩
    · exact .inr (by simp [bracket])
    · exact .inl none
  · obtain rfl : escaped = false := settled
    cases rest with
    | nil => rcases boundary with bracket | ⟨dotted,_⟩ <;> contradiction
    | cons c rest =>
      have stop : c = '[' ∨ c = '.' := by
        rcases boundary with bracket | ⟨dotted,_⟩
        · exact .inl (Option.some.inj bracket)
        · exact .inr (Option.some.inj dotted)
      rw [run_stop raw rest ((isStop_plain c).mpr stop)]
      rfl

theorem run_append {front back : Text} {pieces : List Piece} (ran : run top front = .ok pieces)
    (settled : ¬Odd front.slashes)
    (boundary : back.head? = some '[' ∨ back.head? = some '.' ∧ front.getLast? ≠ some '.') :
    run top (front ++ back) = behind pieces (run top back) := by
  obtain ⟨earlier,mode,last,reads,finished,rfl⟩ := run_ok ran
  have trails := reads.trailing
  have undotted : back.head? = some '[' ∨ back.head? = some '.' ∧ mode.dots = [] := by
    refine boundary.imp_right fun ⟨dotted,ending⟩ => ⟨dotted,?_⟩
    obtain ⟨start,rfl⟩ := trails.dots
    cases mode with
    | dot | descent => simp [dots] at ending
    | top | inside | group => rfl
  rw [reads.run,run_resumed finished (trails.settled settled) undotted,behind_behind]

end Mode

theorem Cursor.split_append {front back : Text} {fragments : List Fragment}
    (accepted : (start front).split.1 = .ok fragments) (settled : ¬Odd front.slashes)
    (boundary : back.head? = some '[' ∨ back.head? = some '.' ∧ front.getLast? ≠ some '.') :
    (start (front ++ back)).split.1 =
      ((start back).split.1.map (fragments ++ ·)).mapError (Failure.moved (front ++ back) front.length) := by
  obtain ⟨pieces,ran,rfl⟩ := split_accepted accepted
  have joined := Mode.run_append ran settled boundary
  cases later : Mode.run .top back with
  | error halt =>
    rw [later,Mode.behind_error] at joined
    rw [split_halted joined,split_halted later,Halt.failure_moved front (Mode.run_halt_rest later)]
    rfl
  | ok others =>
    rw [later,Mode.behind_ok] at joined
    rw [split_ran joined,split_ran later,List.map_append]
    rfl

theorem Cursor.split_append_cases :
    (start ("$.a\\\\".toList ++ "..b[0]".toList)).split.1 = .ok
      [⟨['$'],false⟩,⟨['a'],false⟩,⟨['.','.'],false⟩,⟨['b'],false⟩,⟨['0'],true⟩] ∧
    (start ("$.['a']".toList ++ "...".toList)).split.1 =
      .error (.unusable ("$.['a']".toList ++ "...".toList) (.unexpected '.' 9)) := by
  have plain : (start "$.a\\\\".toList).split.1 = .ok [⟨['$'],false⟩,⟨['a'],false⟩] :=
    (split_ran (show Mode.run .top _ = .ok [.root,.raw false ['a']] from rfl)).trans (by decide +kernel)
  have quoted : (start "$.['a']".toList).split.1 = .ok [⟨['$'],false⟩,⟨['a'],true⟩] :=
    (split_ran (show Mode.run .top _ = .ok [.root,.raw true "['a']".toList] from rfl)).trans
      (by decide +kernel)
  have tail : (start "..b[0]".toList).split.1 = .ok [⟨['.','.'],false⟩,⟨['b'],false⟩,⟨['0'],true⟩] :=
    (split_ran (show Mode.run .top _ = .ok [.descent,.raw false ['b'],.raw true "[0]".toList] from rfl)).trans
      (by decide +kernel)
  have dots : (start "...".toList).split.1 = .error (.unusable "...".toList (.unexpected '.' 2)) :=
    split_halted (show Mode.run .top _ = .error (.unexpected '.' []) from rfl)
  have accepted := split_append plain (by decide)
    (show "..b[0]".toList.head? = _ ∨ _ from .inr ⟨rfl,by decide⟩)
  have refused := split_append quoted (by decide)
    (show "...".toList.head? = _ ∨ _ from .inr ⟨rfl,by decide⟩)
  rw [tail] at accepted
  rw [dots] at refused
  exact ⟨accepted,refused⟩

theorem Failure.moved_moved (path used : Text) (first second : Nat) (failure : Failure) :
    (failure.moved path first).moved used second = failure.moved used (second + first) := by
  cases failure with
  | unusable _ fault => cases fault <;> simp [moved,Fault.moved,Nat.add_assoc]
  | endOfInput index => simp [moved,Nat.add_assoc]
  | limitNotPositive | noTokenLeft => rfl

namespace Mode

variable {mode : Mode} {front back : Text} {earlier last later : List Piece}

theorem run_spaces (count : Nat) (back : Text) : run top (List.replicate count ' ' ++ back) = run top back := by
  induction count with
  | zero => rfl
  | succ count ih => rw [List.replicate_succ,List.cons_append,run_blank,ih]

theorem Idle.run_spaced (idle : mode.Idle) (count : Nat) (apart : mode.dots = [] ∨ back.head? ≠ some '.') :
    run mode (List.replicate count ' ' ++ back) = run mode back := by
  have spaced : mode.dots = [] ∨ (List.replicate count ' ' ++ back).head? ≠ some '.' := by
    cases count with
    | zero => exact apart
    | succ count => exact .inr (by simp [List.replicate_succ])
  rw [idle.run_top spaced,run_spaces,idle.run_top apart]

theorem idle_of_longer (reads : Reads top front earlier mode) (finished : mode.finish = .ok last)
    (extended : run top (front ++ ['x']) = .ok later)
    (longer : later.length = (earlier ++ last).length + 1) : mode.Idle := by
  rcases finish_cases finished with ⟨idle,_⟩ | ⟨escaped,raw,rfl,rfl⟩
  · exact idle
  · have taken : run (inside false escaped raw) ['x'] = .ok [.raw false (raw ++ ['x'])] := by
      cases escaped <;> rfl
    rw [reads.run,taken,behind_ok] at extended
    cases extended
    simp at longer

end Mode

theorem Cursor.split_spaced {front back : Text} {fragments : List Fragment} (count : Nat)
    (accepted : (start front).split.1 = .ok fragments)
    (outside : (start (front ++ ['x'])).split.1 = .ok (fragments ++ [⟨['x'],false⟩]))
    (apart : ¬(front.getLast? = some '.' ∧ back.head? = some '.')) :
    (start (front ++ List.replicate count ' ' ++ back)).split.1 =
      (start (front ++ back)).split.1.mapError (Failure.moved (front ++ List.replicate count ' ' ++ back) count) := by
  obtain ⟨pieces,ran,rfl⟩ := split_accepted accepted
  obtain ⟨later,extended,fragments⟩ := split_accepted outside
  obtain ⟨earlier,mode,last,reads,finished,rfl⟩ := Mode.run_ok ran
  have longer : later.length = (earlier ++ last).length + 1 := by
    have counts := congrArg List.length fragments
    simpa [Nat.add_assoc] using counts.symm
  have idle := Mode.idle_of_longer reads finished extended longer
  have single : mode.dots = [] ∨ back.head? ≠ some '.' := by
    obtain ⟨start,ending⟩ := reads.trailing.dots
    rcases idle with rfl | rfl | rfl
    · exact .inl rfl
    · exact .inr fun dotted => apart ⟨by simp [← ending,Mode.dots],dotted⟩
    · exact .inr fun dotted => apart ⟨by simp [← ending,Mode.dots],dotted⟩
  have spaced : Mode.run .top (front ++ List.replicate count ' ' ++ back) = Mode.run .top (front ++ back) := by
    rw [List.append_assoc,reads.run,idle.run_spaced count single,reads.run]
  cases joined : Mode.run .top (front ++ back) with
  | ok all =>
    rw [joined] at spaced
    rw [split_ran spaced,split_ran joined]
    rfl
  | error halt =>
    rw [joined] at spaced
    have within : halt.rest <:+ back := by
      rw [reads.run] at joined
      cases behind : Mode.run mode back with
      | ok others => rw [behind] at joined; cases joined
      | error found => rw [behind] at joined; cases joined; exact Mode.run_halt_rest behind
    rw [split_halted spaced,split_halted joined,Halt.failure_moved _ within,Halt.failure_moved _ within]
    simp [Except.mapError,Failure.moved_moved,Nat.add_comm]

theorem Cursor.split_spaced_cases :
    (start ("$..".toList ++ List.replicate 3 ' ' ++ "a.b".toList)).split.1 =
      .ok [⟨['$'],false⟩,⟨['.','.'],false⟩,⟨['a'],false⟩,⟨['b'],false⟩] ∧
    (start ("[0] .".toList ++ List.replicate 2 ' ' ++ "$...".toList)).split.1 =
      .error (.unusable ("[0] .".toList ++ List.replicate 2 ' ' ++ "$...".toList) (.unexpected '.' 10)) := by
  have descent : (start "$..".toList).split.1 = .ok [⟨['$'],false⟩,⟨['.','.'],false⟩] :=
    split_ran (show Mode.run .top _ = .ok [.root,.descent] from rfl)
  have behindDescent : (start ("$..".toList ++ ['x'])).split.1 =
      .ok [⟨['$'],false⟩,⟨['.','.'],false⟩,⟨['x'],false⟩] :=
    (split_ran (show Mode.run .top _ = .ok [.root,.descent,.raw false ['x']] from rfl)).trans
      (by decide +kernel)
  have joined : (start ("$..".toList ++ "a.b".toList)).split.1 =
      .ok [⟨['$'],false⟩,⟨['.','.'],false⟩,⟨['a'],false⟩,⟨['b'],false⟩] :=
    (split_ran (show Mode.run .top _ = .ok [.root,.descent,.raw false ['a'],.raw false ['b']] from rfl)).trans
      (by decide +kernel)
  have bracket : (start "[0] .".toList).split.1 = .ok [⟨['0'],true⟩] :=
    (split_ran (show Mode.run .top _ = .ok [.raw true "[0]".toList] from rfl)).trans (by decide +kernel)
  have behindBracket : (start ("[0] .".toList ++ ['x'])).split.1 = .ok [⟨['0'],true⟩,⟨['x'],false⟩] :=
    (split_ran (show Mode.run .top _ = .ok [.raw true "[0]".toList,.raw false ['x']] from rfl)).trans
      (by decide +kernel)
  have dots : (start ("[0] .".toList ++ "$...".toList)).split.1 =
      .error (.unusable ("[0] .".toList ++ "$...".toList) (.unexpected '.' 8)) :=
    split_halted (show Mode.run .top _ = .error (.unexpected '.' []) from rfl)
  have spaced := split_spaced 3 descent behindDescent
    (show ¬(_ ∧ "a.b".toList.head? = some '.') from fun both => absurd both.2 (by decide))
  have refused := split_spaced 2 bracket behindBracket
    (show ¬(_ ∧ "$...".toList.head? = some '.') from fun both => absurd both.2 (by decide))
  rw [joined] at spaced
  rw [dots] at refused
  exact ⟨spaced,refused⟩

end PathExpr
