import Mathlib.Algebra.Ring.Parity
import PathExpr.Proofs.Mode.Piece

-- A run cut in two: what the machine has made of a stretch of text, and the mode
-- that all it does with the rest depends on.
namespace PathExpr

def Text.slashes (text : Text) : Nat := (text.reverse.takeWhile (· == '\\')).length

theorem Text.slashes_concat (text : Text) (c : Char) :
    slashes (text ++ [c]) = if c = '\\' then slashes text + 1 else 0 := by
  by_cases slash : c = '\\' <;> simp [slashes,slash]

namespace Mode

inductive Reads : Mode → Text → List Piece → Mode → Prop where
  | nil {mode : Mode} : Reads mode [] [] mode
  | cons {mode next last : Mode} {c : Char} {rest : Text} {first later : List Piece}
      (stepped : mode.step c = some (first,next)) (reads : Reads next rest later last) :
      Reads mode (c :: rest) (first ++ later) last

variable {mode next : Mode} {c : Char} {front text rest : Text} {pieces all : List Piece}

theorem Reads.run (reads : Reads mode front pieces next) (rest : Text) :
    run mode (front ++ rest) = behind pieces (run next rest) := by
  induction reads with
  | nil => rw [List.nil_append,behind_nil]
  | cons stepped _ ih => rw [List.cons_append,run_cons _ stepped,ih,behind_behind]

theorem Reads.run_all (reads : Reads mode text pieces next) : Mode.run mode text = behind pieces next.finish := by
  have ran := reads.run []
  rwa [List.append_nil] at ran

theorem Reads.trans {middle last : Mode} {later : List Piece} (one : Reads mode front pieces middle)
    (two : Reads middle rest later last) : Reads mode (front ++ rest) (pieces ++ later) last := by
  induction one with
  | nil => exact two
  | cons stepped _ ih =>
    rw [List.cons_append,List.append_assoc]
    exact .cons stepped (ih two)

theorem Reads.cut {last : Mode} (reads : Reads mode (front ++ rest) all last) :
    ∃ pieces middle later, Reads mode front pieces middle ∧ Reads middle rest later last ∧
      all = pieces ++ later := by
  induction front generalizing mode all with
  | nil => exact ⟨[],mode,all,.nil,reads,rfl⟩
  | cons c front ih =>
    cases reads with
    | @cons _ _ _ _ _ first _ stepped reads =>
      obtain ⟨pieces,middle,later,one,two,rfl⟩ := ih reads
      exact ⟨first ++ pieces,middle,later,.cons stepped one,two,(List.append_assoc _ _ _).symm⟩

theorem reads_or_refused (mode : Mode) (text : Text) :
    (∃ pieces next, Reads mode text pieces next) ∨
      ∃ front rest pieces, text = front ++ '.' :: rest ∧ Reads mode front pieces descent := by
  induction text generalizing mode with
  | nil => exact .inl ⟨[],mode,.nil⟩
  | cons c rest ih =>
    cases stepped : mode.step c with
    | none =>
      obtain ⟨rfl,rfl⟩ := step_refused.mp stepped
      exact .inr ⟨[],rest,[],rfl,.nil⟩
    | some result =>
      obtain ⟨first,next⟩ := result
      rcases ih next with ⟨pieces,last,reads⟩ | ⟨front,rest,pieces,rfl,reads⟩
      · exact .inl ⟨_,last,.cons stepped reads⟩
      · exact .inr ⟨c :: front,rest,_,rfl,.cons stepped reads⟩

theorem Reads.run_refused (reads : Reads mode front pieces descent) (rest : Text) :
    Mode.run mode (front ++ '.' :: rest) = .error (.unexpected '.' rest) := by
  rw [reads.run,Mode.run_refused rest (step_refused.mpr ⟨rfl,rfl⟩),behind_error]

theorem run_ok (ran : run mode text = .ok all) :
    ∃ pieces next last, Reads mode text pieces next ∧ next.finish = .ok last ∧ all = pieces ++ last := by
  rcases reads_or_refused mode text with ⟨pieces,next,reads⟩ | ⟨front,rest,pieces,rfl,reads⟩
  · rw [reads.run_all] at ran
    obtain ⟨last,finished,rfl⟩ := behind_accepted ran
    exact ⟨pieces,next,last,reads,finished,rfl⟩
  · rw [reads.run_refused] at ran
    cases ran

theorem run_error {halt : Halt} (ran : run mode text = .error halt) :
    (∃ pieces next, Reads mode text pieces next ∧ next.finish = .error halt) ∨
      ∃ front rest pieces, text = front ++ '.' :: rest ∧ Reads mode front pieces descent ∧
        halt = .unexpected '.' rest := by
  rcases reads_or_refused mode text with ⟨pieces,next,reads⟩ | ⟨front,rest,pieces,rfl,reads⟩
  · rw [reads.run_all] at ran
    cases finished : next.finish with
    | ok last => rw [finished] at ran; cases ran
    | error found => rw [finished] at ran; cases ran; exact .inl ⟨pieces,next,reads,finished⟩
  · rw [reads.run_refused] at ran
    cases ran
    exact .inr ⟨front,rest,pieces,rfl,reads,rfl⟩

def dots : Mode → Text
  | dot => ['.']
  | descent => ['.','.']
  | _ => []

def pending : Mode → Bool
  | inside _ escaped _ => escaped
  | _ => false

def grouped : Mode → Bool
  | group .. => true
  | _ => false

-- What a mode tells of the end of the text that led to it. Backslashes in a group
-- are copied, and only behind a group does their number count again.
structure Trails (read : Text) (mode : Mode) : Prop where
  dots : mode.dots <:+ read
  slashes : mode.grouped = false → (mode.pending = true ↔ Odd read.slashes)

theorem Trails.settled {read : Text} (trails : Trails read mode) (even : ¬Odd read.slashes) : mode.pending = false := by
  cases mode with
  | inside => simpa [even] using trails.slashes rfl
  | top | dot | descent | group => rfl

theorem trails_top : Trails [] top := by
  refine ⟨List.nil_suffix,fun _ => ?_⟩
  simp [pending,Text.slashes]

theorem enter_trails {read : Text} (even : ¬Odd read.slashes) (c : Char) :
    Trails (read ++ [c]) (enter c).2 := by
  have counted := Text.slashes_concat read c
  fun_cases enter c <;> refine ⟨?_,fun _ => ?_⟩ <;> simp_all [dots,pending]

theorem step_trails {read : Text} (trails : Trails read mode) (stepped : Step mode c pieces next) :
    Trails (read ++ [c]) next := by
  have counted := Text.slashes_concat read c
  cases stepped with
  | enter idle =>
    apply enter_trails
    rcases idle with rfl | ⟨rfl | rfl,_⟩ <;> simpa [pending] using trails.slashes rfl
  | descend =>
    refine ⟨?_,fun _ => by simp [pending,counted]⟩
    obtain ⟨earlier,rfl⟩ := trails.dots
    exact ⟨earlier,by simp [dots]⟩
  | leave =>
    apply enter_trails
    simpa [pending] using trails.slashes rfl
  | close => exact ⟨List.nil_suffix,fun _ => by simp [pending,counted]⟩
  | slash =>
    have before := trails.slashes rfl
    refine ⟨List.nil_suffix,fun _ => ?_⟩
    simp only [pending] at before ⊢
    rw [counted,if_pos rfl,Nat.odd_add_one,← before]
    simp
  | copy kept => exact ⟨List.nil_suffix,fun _ => by simp [pending,counted,kept]⟩
  | openGroup => exact ⟨List.nil_suffix,nofun⟩
  | copyGroup => exact ⟨List.nil_suffix,nofun⟩
  | closeGroup => exact ⟨List.nil_suffix,fun _ => by simp [pending,counted]⟩

theorem Reads.trails {read : Text} (trails : Trails read mode) (reads : Reads mode text pieces next) :
    Trails (read ++ text) next := by
  induction reads generalizing read with
  | nil => rwa [List.append_nil]
  | cons stepped _ ih =>
    have later := ih (step_trails trails (step_sound stepped))
    rwa [List.append_assoc] at later

theorem Reads.trailing (reads : Reads top text pieces next) : Trails text next := reads.trails trails_top

end Mode
end PathExpr
