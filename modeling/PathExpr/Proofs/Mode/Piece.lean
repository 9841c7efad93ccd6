import PathExpr.Proofs.Mode
import PathExpr.Proofs.Text

-- What the pieces of a run are made of. Every character read is in some piece, in
-- its place, unless it is one that the machine itself drops.
namespace PathExpr

def Piece.Enclosed : Piece → Prop
  | .raw true text => ∃ inner, text = '[' :: (inner ++ [']'])
  | _ => True

namespace Mode

variable {mode next : Mode} {c : Char} {rest : Text} {pieces : List Piece}

theorem run_ok_cons (ran : run mode (c :: rest) = .ok pieces) :
    ∃ first next later, mode.step c = some (first,next) ∧ run next rest = .ok later ∧
      pieces = first ++ later := by
  cases stepped : mode.step c with
  | none => rw [run_refused rest stepped] at ran; cases ran
  | some result =>
    obtain ⟨first,next⟩ := result
    rw [run_cons rest stepped] at ran
    obtain ⟨later,continued,rfl⟩ := behind_accepted ran
    exact ⟨first,next,later,rfl,continued,rfl⟩

inductive Step : Mode → Char → List Piece → Mode → Prop where
  | enter {mode : Mode} {c : Char} (idle : mode = top ∨ (mode = dot ∨ mode = descent) ∧ c ≠ '.') :
      Step mode c (Mode.enter c).1 (Mode.enter c).2
  | descend : Step dot '.' [.descent] descent
  | leave {raw : Text} {c : Char} (stop : c = '[' ∨ c = '.') :
      Step (inside false false raw) c (.raw false raw :: (Mode.enter c).1) (Mode.enter c).2
  | close {raw : Text} : Step (inside true false raw) ']' [.raw true (raw ++ [']'])] top
  | slash {bracketed escaped : Bool} {raw : Text} :
      Step (inside bracketed escaped raw) '\\' [] (inside bracketed (!escaped) raw)
  | copy {bracketed escaped : Bool} {raw : Text} {c : Char} (kept : c ≠ '\\')
      (free : escaped = true ∨ (boundary bracketed).isStop c = false ∧ c ≠ '(') :
      Step (inside bracketed escaped raw) c [] (inside bracketed false (raw ++ [c]))
  | openGroup {bracketed : Bool} {raw : Text} :
      Step (inside bracketed false raw) '(' [] (group bracketed (raw ++ ['(']))
  | copyGroup {bracketed : Bool} {raw : Text} {c : Char} (inner : c ≠ ')') :
      Step (group bracketed raw) c [] (group bracketed (raw ++ [c]))
  | closeGroup {bracketed : Bool} {raw : Text} :
      Step (group bracketed raw) ')' [] (inside bracketed false (raw ++ [')']))

theorem step_enter (idle : mode = top ∨ (mode = dot ∨ mode = descent) ∧ c ≠ '.')
    (entered : enter c = (pieces,next)) : Step mode c pieces next := by
  have step := Step.enter idle
  rwa [entered] at step

theorem step_inside {bracketed escaped : Bool} {raw : Text}
    (stepped : step (inside bracketed escaped raw) c = some (pieces,next)) :
    Step (inside bracketed escaped raw) c pieces next := by
  by_cases stops : (!escaped && (boundary bracketed).isStop c) = true
  · obtain ⟨rfl,stops⟩ : escaped = false ∧ (boundary bracketed).isStop c = true := by simpa using stops
    cases bracketed with
    | false =>
      have stops := (isStop_plain c).mp stops
      rw [step_stop raw stops] at stepped
      cases stepped
      exact .leave stops
    | true =>
      obtain rfl := (isStop_bracketed c).mp stops
      cases stepped
      exact .close
  · by_cases opens : (!escaped && decide (c = '(')) = true
    · obtain ⟨rfl,rfl⟩ : escaped = false ∧ c = '(' := by simpa using opens
      cases bracketed <;> cases stepped <;> exact .openGroup
    · rw [step_copied raw (by simpa using stops) (by simpa using opens)] at stepped
      by_cases slash : c = '\\'
      · subst c; cases stepped; exact .slash
      · rw [if_neg slash] at stepped
        cases stepped
        refine .copy slash ?_
        cases escaped with
        | true => exact .inl rfl
        | false => exact .inr ⟨by simpa using stops,by simpa using opens⟩

theorem step_sound (stepped : mode.step c = some (pieces,next)) : Step mode c pieces next := by
  cases mode with
  | top => exact step_enter (.inl rfl) (Option.some.inj stepped)
  | dot =>
    simp only [step] at stepped
    split at stepped
    · rename_i second; subst second; cases stepped; exact .descend
    · rename_i single; exact step_enter (.inr ⟨.inl rfl,single⟩) (Option.some.inj stepped)
  | descent =>
    simp only [step] at stepped
    split at stepped
    · cases stepped
    · rename_i single; exact step_enter (.inr ⟨.inr rfl,single⟩) (Option.some.inj stepped)
  | group bracketed raw =>
    by_cases closes : c = ')'
    · subst c; cases stepped; exact .closeGroup
    · simp only [step,if_neg closes] at stepped; cases stepped; exact .copyGroup closes
  | inside bracketed escaped raw => exact step_inside stepped

def held : Mode → Text
  | top | dot | descent => []
  | inside _ _ raw => raw
  | group _ raw => raw

-- What a run has taken up and may still give out. A lone dot comes to nothing in the
-- end, but the next character can make it half of a descent.
def carried : Mode → Text
  | dot => ['.']
  | mode => mode.held

def isDropped (c : Char) : Bool := [' ','.','\\'].contains c

theorem enter_loses (c : Char) :
    Text.Loses isDropped [c] ((enter c).1.flatMap Piece.text ++ (enter c).2.carried) := by
  fun_cases enter c with
  | case1 blank => subst blank; exact .drop rfl .nil
  | case2 _ root => subst root; exact .refl _
  | case3 _ _ dot => subst dot; exact .refl _
  | case4 _ _ _ bracket => subst bracket; exact .refl _
  | case5 _ _ _ _ opens => subst opens; exact .refl _
  | case6 _ _ _ _ _ slash => subst slash; exact .drop rfl .nil
  | case7 => exact .refl _

theorem step_loses (stepped : Step mode c pieces next) :
    Text.Loses isDropped (mode.carried ++ [c]) (pieces.flatMap Piece.text ++ next.carried) := by
  have entered := enter_loses c
  cases stepped with
  | enter idle =>
    rcases idle with rfl | ⟨rfl | rfl,_⟩
    · exact entered
    · exact .drop rfl entered
    · exact entered
  | descend => exact .refl _
  | @leave raw =>
    have later := (Text.Loses.refl raw).append entered
    rwa [← List.append_assoc] at later
  | close => simpa [Piece.text,carried,held] using .refl _
  | @slash bracketed escaped raw =>
    have lost := (Text.Loses.refl raw).append (.drop (show isDropped '\\' = true from rfl) .nil)
    rwa [List.append_nil] at lost
  | copy | openGroup | copyGroup | closeGroup => exact .refl _

theorem finish_loses (finished : mode.finish = .ok pieces) :
    Text.Loses isDropped mode.carried (pieces.flatMap Piece.text) := by
  rcases finish_cases finished with ⟨rfl | rfl | rfl,rfl⟩ | ⟨_,raw,rfl,rfl⟩
  · exact .nil
  · exact .drop rfl .nil
  · exact .nil
  · simpa [Piece.text,carried,held] using .refl raw

theorem run_loses (ran : run mode rest = .ok pieces) :
    Text.Loses isDropped (mode.carried ++ rest) (pieces.flatMap Piece.text) := by
  induction rest generalizing mode pieces with
  | nil =>
    rw [List.append_nil]
    exact finish_loses ran
  | cons c rest ih =>
    obtain ⟨first,next,later,stepped,continued,rfl⟩ := run_ok_cons ran
    have here := (step_loses (step_sound stepped)).append (.refl rest)
    have there := (Text.Loses.refl (first.flatMap Piece.text)).append (ih continued)
    rw [List.append_assoc,List.append_assoc] at here
    rw [List.flatMap_append]
    exact here.trans there

def Leads (raw : Text) : Prop := ∃ inner, raw = '[' :: inner

theorem Leads.append {raw : Text} (leads : Leads raw) (c : Char) : Leads (raw ++ [c]) := by
  obtain ⟨inner,rfl⟩ := leads
  exact ⟨inner ++ [c],rfl⟩

def Opened : Mode → Prop
  | inside bracketed _ raw | group bracketed raw => bracketed = true → Leads raw
  | _ => True

theorem enter_opened (c : Char) : (enter c).2.Opened ∧ ∀ piece ∈ (enter c).1, piece.Enclosed := by
  fun_cases enter c <;> simp [Opened,Leads,Piece.Enclosed]

theorem step_enclosed (opened : mode.Opened) (stepped : Step mode c pieces next) :
    next.Opened ∧ ∀ piece ∈ pieces, piece.Enclosed := by
  cases stepped with
  | enter => exact enter_opened c
  | descend => exact ⟨trivial,by simp [Piece.Enclosed]⟩
  | leave =>
    obtain ⟨entered,enclosed⟩ := enter_opened c
    refine ⟨entered,fun piece member => ?_⟩
    rcases List.mem_cons.mp member with rfl | member
    · trivial
    · exact enclosed piece member
  | close =>
    obtain ⟨inner,rfl⟩ := opened rfl
    refine ⟨trivial,fun piece member => ?_⟩
    rw [List.mem_singleton.mp member]
    exact ⟨inner,rfl⟩
  | slash => exact ⟨opened,by simp⟩
  | copy => exact ⟨fun bracketed => (opened bracketed).append c,by simp⟩
  | openGroup => exact ⟨fun bracketed => (opened bracketed).append _,by simp⟩
  | copyGroup => exact ⟨fun bracketed => (opened bracketed).append c,by simp⟩
  | closeGroup => exact ⟨fun bracketed => (opened bracketed).append _,by simp⟩

theorem finish_enclosed (finished : mode.finish = .ok pieces) : ∀ piece ∈ pieces, piece.Enclosed := by
  intro piece member
  obtain ⟨_,_,_,rfl⟩ := finish_piece finished member
  trivial

theorem run_enclosed (opened : mode.Opened) (ran : run mode rest = .ok pieces) :
    ∀ piece ∈ pieces, piece.Enclosed := by
  induction rest generalizing mode pieces with
  | nil => exact finish_enclosed ran
  | cons c rest ih =>
    obtain ⟨first,next,later,stepped,continued,rfl⟩ := run_ok_cons ran
    obtain ⟨carried,enclosed⟩ := step_enclosed opened (step_sound stepped)
    intro piece member
    rcases List.mem_append.mp member with here | there
    · exact enclosed piece here
    · exact ih carried continued piece there

end Mode
end PathExpr
