import PathExpr.Proofs.Cursor
import PathExpr.Proofs.Sighting

-- A path in slices, one for each fragment. A slice holds a fragment and what is passed over
-- in front of it, and a scan of the slice alone finds that fragment and no other.
namespace PathExpr

namespace Mode

theorem run_padded (text other : Text) :
    run top (text.takeWhile (· == ' ') ++ other) = run top other := by
  induction text with
  | nil => rfl
  | cons c rest ih =>
    by_cases blank : c = ' '
    · subst c
      simpa [run_blank] using ih
    · simp [blank]

end Mode

namespace Sighting

open Mode

variable {text rest : Text} {fragment : Fragment}

theorem of_slice (met : Sighting.of text = .fragment fragment rest) :
    ∃ slice, text = slice ++ rest ∧ outcome slice = .ok [fragment] := by
  obtain ⟨slice,joined,again⟩ := of_onto (show (Sighting.of text).rest? = some rest by rw [met]; rfl)
  have alone := again [] (.inl rfl)
  rw [List.append_nil,met] at alone
  refine ⟨slice,joined,?_⟩
  rw [outcome_sighting,alone]
  rfl

theorem of_separated (met : Sighting.of text = .separator rest) : rest.head? ≠ some '.' ∧
    ∃ front, text = front ++ rest ∧ ∀ other, other.head? ≠ some '.' → outcome (front ++ other) = outcome other := by
  unfold Sighting.of at met
  split at met
  · cases met
  · cases met
  · rename_i after found
    unfold descent at met
    split at met <;> cases met
  · rename_i after single found
    cases met
    refine ⟨?_,text.takeWhile (· == ' ') ++ ['.'],?_,?_⟩
    · intro first
      obtain ⟨later,rfl⟩ := List.head?_eq_some_iff.mp first
      exact single later rfl
    · rw [List.append_assoc,List.singleton_append,← found,padded]
    · intro other alone
      rw [outcome,List.append_assoc,run_padded,List.singleton_append,run_separator,run_dot other alone]
      rfl
  · exact absurd met (by unfold bracketed ofRaw; split <;> simp)
  · exact absurd met (by unfold plain ofRaw; split <;> simp)

end Sighting

-- The marks of a scan, each behind a slice in which its fragment is all there is to find,
-- and the text that is left over behind the last one.
inductive Slices : Text → List Mark → Text → Prop where
  | nil {text : Text} : Slices text [] text
  | cons {slice rest left : Text} {fragment : Fragment} {marks : List Mark}
      (alone : Mode.outcome slice = .ok [fragment]) (later : Slices rest marks left) :
      Slices (slice ++ rest) (⟨fragment,rest⟩ :: marks) left

namespace Slices

variable {text left front : Text} {marks : List Mark}

theorem room {slice : Text} {fragment : Fragment} (alone : Mode.outcome slice = .ok [fragment]) :
    0 < slice.length := by
  cases slice with
  | nil => cases alone
  | cons c slice => exact Nat.succ_pos _

theorem separated (slices : Slices text marks left) (single : text.head? ≠ some '.')
    (passed : ∀ other, other.head? ≠ some '.' → Mode.outcome (front ++ other) = Mode.outcome other) :
    ∃ last, Slices (front ++ text) marks last ∧ Mode.outcome last = Mode.outcome left := by
  cases slices with
  | nil => exact ⟨_,.nil,passed text single⟩
  | @cons slice rest _ fragment marks alone later =>
    refine ⟨left,?_,rfl⟩
    have first : slice.head? ≠ some '.' := by
      cases slice with
      | nil => simp
      | cons c slice => exact single
    rw [← List.append_assoc]
    exact .cons ((passed slice first).trans alone) later

end Slices

theorem Scan.slices (text : Text) : ∃ left, Slices text (of text).marks left ∧
    Mode.outcome left = match (of text).halt with
      | none => .ok []
      | some halt => .error halt := by
  induction text using sighting_induction with
  | ending text met =>
    rw [of_ending met]
    exact ⟨text,.nil,by rw [Mode.outcome_sighting,met]; rfl⟩
  | separator text rest met ih =>
    rw [of_separator met]
    obtain ⟨left,slices,unread⟩ := ih
    obtain ⟨single,front,rfl,passed⟩ := Sighting.of_separated met
    obtain ⟨last,whole,same⟩ := slices.separated single passed
    exact ⟨last,whole,same.trans unread⟩
  | fragment text fragment rest met ih =>
    rw [of_fragment met]
    obtain ⟨left,slices,unread⟩ := ih
    obtain ⟨slice,rfl,alone⟩ := Sighting.of_slice met
    exact ⟨left,.cons alone slices,unread⟩
  | halted text halt met =>
    rw [of_halted met]
    exact ⟨text,.nil,by rw [Mode.outcome_sighting,met]; rfl⟩

inductive Cut (path : Text) : Nat → List (Fragment × Nat) → Nat → Prop where
  | nil {start : Nat} : Cut path start [] start
  | cons {start behind last : Nat} {fragment : Fragment} {later : List (Fragment × Nat)}
      (onward : start < behind) (within : behind ≤ path.length)
      (alone : (Cursor.start (path.extract start behind)).split.1 = .ok [fragment])
      (rest : Cut path behind later last) : Cut path start ((fragment,behind) :: later) last

def Mark.cut (path : Text) (mark : Mark) : Fragment × Nat :=
  (mark.fragment,path.length - mark.rest.length)

theorem Slices.cut {text left : Text} {marks : List Mark} (slices : Slices text marks left) (front : Text) :
    ∃ last, (front ++ text).drop last = left ∧
      Cut (front ++ text) front.length (marks.map (Mark.cut (front ++ text))) last := by
  induction slices generalizing front with
  | nil => exact ⟨front.length,List.drop_left,.nil⟩
  | @cons slice rest left fragment marks alone _ ih =>
    obtain ⟨last,unread,cut⟩ := ih (front ++ slice)
    rw [List.append_assoc] at unread cut
    rw [List.length_append] at cut
    have behind : (front ++ (slice ++ rest)).length - rest.length = front.length + slice.length := by
      simp only [List.length_append]
      omega
    refine ⟨last,unread,?_⟩
    rw [List.map_cons,Mark.cut,behind]
    refine .cons (Nat.lt_add_of_pos_right (room alone)) ?_ ?_ cut
    · simp only [List.length_append]
      omega
    · have between : (front ++ (slice ++ rest)).extract front.length (front.length + slice.length) = slice := by
        simp [List.extract]
      rw [between,Cursor.split_outcome,alone]
      rfl

end PathExpr
