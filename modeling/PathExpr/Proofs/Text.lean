import Mathlib.Data.List.TakeWhile
import PathExpr.Text.Blank

-- Laws of replacing, settling and trimming. What a rewriting takes away is told by
-- the characters it may drop: all others stay, in the same order.
namespace PathExpr.Text

variable {keep drops wider : Char → Bool} {before middle after old new : Text} {pass : Text → Text}

inductive Loses (drops : Char → Bool) : Text → Text → Prop where
  | nil : Loses drops [] []
  | keep {c : Char} {before after : Text} (later : Loses drops before after) :
      Loses drops (c :: before) (c :: after)
  | drop {c : Char} {before after : Text} (dropped : drops c = true) (later : Loses drops before after) :
      Loses drops (c :: before) after

namespace Loses

theorem refl (text : Text) : Loses drops text text := by
  induction text with
  | nil => exact .nil
  | cons c rest ih => exact .keep ih

theorem trans (one : Loses drops before middle) (two : Loses drops middle after) :
    Loses drops before after := by
  induction one generalizing after with
  | nil => exact two
  | keep _ ih =>
    cases two with
    | keep later => exact .keep (ih later)
    | drop dropped later => exact .drop dropped (ih later)
  | drop dropped _ ih => exact .drop dropped (ih two)

theorem append {front back : Text} (one : Loses drops before after) (two : Loses drops front back) :
    Loses drops (before ++ front) (after ++ back) := by
  induction one with
  | nil => exact two
  | keep _ ih => exact .keep ih
  | drop dropped _ ih => exact .drop dropped ih

theorem mono (more : ∀ c, drops c = true → wider c = true) (loses : Loses drops before after) :
    Loses wider before after := by
  induction loses with
  | nil => exact .nil
  | keep _ ih => exact .keep ih
  | drop dropped _ ih => exact .drop (more _ dropped) ih

theorem reverse (loses : Loses drops before after) : Loses drops before.reverse after.reverse := by
  induction loses with
  | nil => exact .nil
  | keep _ ih =>
    rw [List.reverse_cons,List.reverse_cons]
    exact ih.append (refl _)
  | drop dropped _ ih =>
    have last := ih.append (.drop dropped .nil)
    rwa [List.append_nil,← List.reverse_cons] at last

theorem filter (loses : Loses drops before after) (gone : ∀ c, drops c = true → keep c = false) :
    after.filter keep = before.filter keep := by
  induction loses with
  | nil => rfl
  | keep _ ih => rw [List.filter_cons,List.filter_cons,ih]
  | drop dropped _ ih => rw [List.filter_cons,gone _ dropped,ih]; rfl

theorem sublist (loses : Loses drops before after) : after.Sublist before := by
  induction loses with
  | nil => exact .slnil
  | keep _ ih => exact .cons_cons _ ih
  | drop _ _ ih => exact .cons _ ih

end Loses

theorem drop_occurrence {rest tail : Text} {c : Char} (room : old ≠ []) (joined : old ++ tail = c :: rest) :
    rest.drop (old.length - 1) = tail := by
  have length : old.length ≠ 0 := fun empty => room (List.eq_nil_of_length_eq_zero empty)
  have dropped := congrArg (List.drop old.length) joined
  rw [List.drop_left] at dropped
  rw [dropped,show old.length = (old.length - 1) + 1 by omega]
  rfl

theorem loses_replaceFrom (room : old ≠ []) (same : Loses drops old new) (passing : Nat) (text : Text) :
    Loses drops (text.drop passing) (replaceFrom old new passing text) := by
  induction text generalizing passing with
  | nil => cases passing <;> exact .nil
  | cons c rest ih =>
    cases passing with
    | succ passing => exact ih passing
    | zero =>
      rw [replaceFrom]
      split
      · rename_i found
        obtain ⟨tail,joined⟩ := List.isPrefixOf_iff_prefix.mp found
        have later := ih (old.length - 1)
        rw [drop_occurrence room joined] at later
        rw [List.drop_zero,← joined]
        exact same.append later
      · exact .keep (ih 0)

theorem loses_replaceAll (room : old ≠ []) (same : Loses drops old new) (text : Text) :
    Loses drops text (replaceAll old new text) :=
  loses_replaceFrom room same 0 text

theorem replaceAll_absent {text : Text} (absent : ¬old <:+: text) : replaceAll old new text = text := by
  unfold replaceAll
  induction text with
  | nil => rfl
  | cons c rest ih =>
    rw [replaceFrom]
    split
    · rename_i found
      exact absurd (List.isPrefixOf_iff_prefix.mp found).isInfix absent
    · rw [ih fun within => absent (within.trans (List.suffix_cons c rest).isInfix)]

theorem settle_fixed {text : Text} (fixed : pass text = text) : settle pass text = text := by
  rw [settle]
  simp [fixed]

theorem loses_settle (each : ∀ text, Loses drops text (pass text)) (text : Text) :
    Loses drops text (settle pass text) := by
  fun_induction settle pass text with
  | case1 text next shorter ih => exact (each text).trans ih
  | case2 text next settled => exact .refl _

theorem loses_dropWhile (text : Text) : Loses drops text (text.dropWhile drops) := by
  induction text with
  | nil => exact .nil
  | cons c rest ih =>
    by_cases dropped : drops c = true
    · rw [List.dropWhile_cons_of_pos dropped]
      exact .drop dropped ih
    · rw [List.dropWhile_cons_of_neg dropped]
      exact .refl _

theorem loses_trim (text : Text) : Loses drops text (trim drops text) := by
  have back : Loses drops (text.dropWhile drops).reverse ((text.dropWhile drops).reverse.dropWhile drops) :=
    loses_dropWhile _
  have whole := back.reverse
  rw [List.reverse_reverse] at whole
  exact (loses_dropWhile text).trans whole

theorem trim_front (drops : Char → Bool) (text : Text) : trim drops text <+: text.dropWhile drops := by
  have back := List.dropWhile_suffix (l:=(text.dropWhile drops).reverse) drops
  simpa [trim] using List.reverse_prefix.mpr back

theorem trim_head {text : Text} {c : Char} (first : (trim drops text).head? = some c) :
    drops c = false := by
  obtain ⟨tail,joined⟩ := trim_front drops text
  have free := List.head?_dropWhile_not drops text
  rw [← joined,List.head?_append,first] at free
  exact free

theorem trim_last {text : Text} {c : Char} (last : (trim drops text).getLast? = some c) :
    drops c = false := by
  have free := List.head?_dropWhile_not drops (text.dropWhile drops).reverse
  rw [trim,List.getLast?_reverse] at last
  rw [last] at free
  exact free

theorem trim_fixed {text : Text} (first : ∀ c ∈ text.head?, drops c = false)
    (last : ∀ c ∈ text.getLast?, drops c = false) : trim drops text = text := by
  have front : text.dropWhile drops = text := by
    cases text with
    | nil => rfl
    | cons c rest => exact List.dropWhile_cons_of_neg (by simp [first c rfl])
  have back : text.reverse.dropWhile drops = text.reverse := by
    rw [← List.head?_reverse] at last
    cases reversed : text.reverse with
    | nil => rfl
    | cons c rest =>
      rw [reversed] at last
      exact List.dropWhile_cons_of_neg (by simp [last c rfl])
  rw [trim,front,back,List.reverse_reverse]

theorem trim_trim (drops : Char → Bool) (text : Text) : trim drops (trim drops text) = trim drops text :=
  trim_fixed (fun _ first => trim_head first) (fun _ last => trim_last last)

theorem trim_nil {text : Text} (dropped : ∀ c ∈ text, drops c = true) : trim drops text = [] := by
  rw [trim,List.dropWhile_eq_nil_iff.mpr dropped]
  rfl

theorem trim_parts (drops : Char → Bool) (text : Text) : ∃ front behind : Text,
    (∀ c ∈ front, drops c = true) ∧ (∀ c ∈ behind, drops c = true) ∧
      text = front ++ trim drops text ++ behind := by
  have back := List.takeWhile_append_dropWhile (p:=drops) (l:=(text.dropWhile drops).reverse)
  have whole := congrArg List.reverse back
  rw [List.reverse_append,List.reverse_reverse] at whole
  refine ⟨text.takeWhile drops,((text.dropWhile drops).reverse.takeWhile drops).reverse,?_,?_,?_⟩
  · intro c member
    exact List.mem_takeWhile_imp member
  · intro c member
    exact List.mem_takeWhile_imp (List.mem_reverse.mp member)
  · rw [trim,List.append_assoc,whole,List.takeWhile_append_dropWhile]

theorem trim_padded {front behind : Text} (text : Text) (before : ∀ c ∈ front, drops c = true)
    (after : ∀ c ∈ behind, drops c = true) : trim drops (front ++ text ++ behind) = trim drops text := by
  rw [trim,trim,List.append_assoc,List.dropWhile_append_of_pos before,List.dropWhile_append]
  split
  · rename_i empty
    rw [List.isEmpty_iff.mp empty,List.dropWhile_eq_nil_iff.mpr after]
  · rw [List.reverse_append,List.dropWhile_append_of_pos]
    intro c member
    exact after c (List.mem_reverse.mp member)

theorem trim_behind {behind : Text} (text : Text) (after : ∀ c ∈ behind, drops c = true) :
    trim drops (text ++ behind) = trim drops text := by
  have whole : trim drops ([] ++ text ++ behind) = trim drops text :=
    trim_padded text (fun _ member => nomatch member) after
  exact whole

theorem trim_wider (more : ∀ c, drops c = true → wider c = true) (text : Text) :
    trim wider (trim drops text) = trim wider text := by
  obtain ⟨front,behind,before,after,whole⟩ := trim_parts drops text
  have inner : trim wider (front ++ trim drops text ++ behind) = trim wider (trim drops text) :=
    trim_padded _ (fun c member => more c (before c member)) fun c member => more c (after c member)
  rw [← inner,← whole]

end PathExpr.Text
