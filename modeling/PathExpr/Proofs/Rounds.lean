import Mathlib.Data.List.Infix
import PathExpr.Proofs.Sugar

-- The loops of the notation as they are told: round after round, with no measure and
-- no limit, until a round has nothing left to do.
namespace PathExpr

inductive Turn (σ α : Type) where
  | ended (result : α)
  | onward (next : σ)

inductive Ends {σ α : Type} (round : σ → Turn σ α) : σ → α → Prop where
  | now {state : σ} {result : α} (ended : round state = .ended result) : Ends round state result
  | later {state next : σ} {result : α} (went : round state = .onward next)
      (ends : Ends round next result) : Ends round state result

namespace Text

variable {drops : Char → Bool} {old new : Text}

def replaceRound (old new text : Text) : Turn Text Text :=
  if old <:+: text then .onward (replaceAll old new text) else .ended text

theorem replaceAll_shorter {text : Text} (same : Loses drops old new) (shorter : new.length < old.length)
    (found : old <:+: text) : (replaceAll old new text).length < text.length := by
  have room : old ≠ [] := by
    rintro rfl
    cases shorter
  unfold replaceAll
  induction text with
  | nil => exact absurd (List.infix_nil.mp found) room
  | cons c rest ih =>
    rw [replaceFrom]
    split
    · rename_i first
      have fits := (List.isPrefixOf_iff_prefix.mp first).length_le
      have later := (loses_replaceFrom room same (old.length - 1) rest).sublist.length_le
      simp only [List.length_append,List.length_drop,List.length_cons] at fits later ⊢
      omega
    · rename_i elsewhere
      rcases List.infix_cons_iff.mp found with first | within
      · exact absurd (List.isPrefixOf_iff_prefix.mpr first) elsewhere
      · exact Nat.succ_lt_succ (ih within)

theorem settle_ends (same : Loses drops old new) (shorter : new.length < old.length) (text : Text) :
    Ends (replaceRound old new) text (settle (replaceAll old new) text) := by
  fun_induction settle (replaceAll old new) text with
  | case1 text next less ih =>
    have found : old <:+: text := by
      by_contra absent
      have same : next = text := replaceAll_absent absent
      rw [same] at less
      exact Nat.lt_irrefl _ less
    exact .later (if_pos found) ih
  | case2 text next settled =>
    have absent : ¬old <:+: text := fun found => settled (replaceAll_shorter same shorter found)
    exact .now (if_neg absent)

theorem replaceRound_ended {text result : Text}
    (ends : Ends (replaceRound old new) text result) : ¬old <:+: result := by
  induction ends with
  | @now text result ended =>
    unfold replaceRound at ended
    split at ended
    · cases ended
    · rename_i absent
      cases ended
      exact absent
  | later _ _ ih => exact ih

theorem settle_fixed_iff (same : Loses drops old new) (shorter : new.length < old.length) {text : Text} :
    settle (replaceAll old new) text = text ↔ ¬old <:+: text := by
  constructor
  · intro settled
    have ends := settle_ends same shorter text
    rw [settled] at ends
    exact replaceRound_ended ends
  · intro absent
    exact settle_fixed (replaceAll_absent absent)

end Text

namespace Sugar

def round (raw : Text) : Turn Text Text :=
  let bare := pass raw
  if isQuotedKey bare then .ended (quotedKey bare)
  else if Text.strip bare = raw then .ended raw
  else .onward (Text.strip bare)

theorem collapse_ends (mark text : Text) : ∃ closed,
    Ends (Text.replaceRound (mark ++ [' ']) mark) text closed ∧
      Ends (Text.replaceRound (' ' :: mark) mark) closed (collapse mark text) :=
  ⟨_,Text.settle_ends (loses_closing mark) (by simp) text,
    Text.settle_ends (loses_opening mark) (by simp) _⟩

theorem strip_pass_sublist (raw : Text) : (Text.strip (pass raw)).Sublist raw :=
  (Text.loses_trim (pass raw)).sublist.trans (loses_pass raw).sublist

theorem clean_ends (raw : Text) : Ends round raw (clean raw) := by
  fun_induction clean raw with
  | case1 raw bare quoted => exact .now (if_pos quoted)
  | case2 raw bare unquoted next shorter ih =>
    have changed : next ≠ raw := by
      intro same
      rw [same] at shorter
      exact Nat.lt_irrefl _ shorter
    exact .later ((if_neg unquoted).trans (if_neg changed)) ih
  | case3 raw bare unquoted next settled =>
    have same : next = raw := (strip_pass_sublist raw).eq_of_length_le (Nat.le_of_not_lt settled)
    refine .now ((if_neg unquoted).trans ((if_pos same).trans ?_))
    rw [same]

theorem clean_next {raw : Text} (unquoted : isQuotedKey (pass raw) = false) :
    clean raw = clean (Text.strip (pass raw)) := by
  have plain : ¬isQuotedKey (pass raw) = true := by rw [unquoted]; exact Bool.false_ne_true
  by_cases shorter : (Text.strip (pass raw)).length < raw.length
  · rw [clean,if_neg plain]
    exact if_pos shorter
  · have same : Text.strip (pass raw) = raw :=
      (strip_pass_sublist raw).eq_of_length_le (Nat.le_of_not_lt shorter)
    rw [same]

theorem clean_congr {one two : Text} (same : pass one = pass two) : clean one = clean two := by
  cases quoted : isQuotedKey (pass two) with
  | true => rw [clean_key quoted,← same,clean_key (by rw [same,quoted])]
  | false => rw [clean_next quoted,← same,clean_next (by rw [same,quoted])]

end Sugar
end PathExpr
