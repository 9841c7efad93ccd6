import PathExpr.Proofs.Sugar.Spacing

-- What collapsing takes away. Beside a single character it is the padding, told by the runs
-- of blanks that the character ends or starts; beside a longer mark it leaves no blank either,
-- even where the mark overlaps itself.
namespace PathExpr.Sugar

variable {mark : Char} {text rest : Text} {index : Nat}

structure BlankRun (text before : Text) (count : Nat) (behind : Text) : Prop where
  whole : text = before ++ List.replicate count ' ' ++ behind
  front : before.getLast? ≠ some ' '
  back : behind.head? ≠ some ' '

def Padding (mark : Char) (text : Text) (index : Nat) : Prop :=
  ∃ before count behind, BlankRun text before count behind ∧ before.length ≤ index ∧
    index < before.length + count ∧ (before.getLast? = some mark ∨ behind.head? = some mark)

theorem blank_front (text : Text) :
    ∃ count rest, text = List.replicate count ' ' ++ rest ∧ rest.head? ≠ some ' ' := by
  induction text with
  | nil => exact ⟨0,[],rfl,by simp⟩
  | cons c later ih =>
    by_cases blank : c = ' '
    · obtain ⟨count,rest,same,visible⟩ := ih
      exact ⟨count + 1,rest,by rw [blank,same,List.replicate_succ,List.cons_append],visible⟩
    · exact ⟨0,c :: later,rfl,by simpa using blank⟩

theorem opens_blanks (count : Nat) (visible : rest.head? ≠ some ' ') :
    opens (isOne mark) (List.replicate count ' ' ++ rest) = true ↔ rest.head? = some mark := by
  induction count with
  | zero =>
    cases rest with
    | nil => simp [opens]
    | cons c rest =>
      have clear : isSpace c = false := by simpa [isSpace] using visible
      simp [opens_visible clear,isOne]
  | succ count ih => rw [List.replicate_succ,List.cons_append,opens_space rfl,ih]

theorem opens_behind {before : Text} (count : Nat) (visible : before.getLast? ≠ some ' ') :
    opens (isOne mark) (before ++ List.replicate count ' ').reverse = true ↔ before.getLast? = some mark := by
  rw [← List.head?_reverse] at visible ⊢
  rw [List.reverse_append,List.reverse_replicate]
  exact opens_blanks count visible

theorem Padding.seen (padding : Padding mark text index) : text[index]? = some ' ' ∧
    (opens (isOne mark) (text.take index).reverse = true ∨ opens (isOne mark) (text.drop index) = true) := by
  obtain ⟨before,count,behind,⟨rfl,front,back⟩,onward,within,marked⟩ := padding
  obtain ⟨left,rfl⟩ := Nat.exists_eq_add_of_le onward
  obtain ⟨right,rfl⟩ := Nat.exists_eq_add_of_lt (Nat.lt_of_add_lt_add_left within)
  have halves : before ++ List.replicate (left + right + 1) ' ' ++ behind =
      (before ++ List.replicate left ' ') ++ (List.replicate (right + 1) ' ' ++ behind) := by
    rw [Nat.add_assoc,List.replicate_add]
    simp only [List.append_assoc]
  have place : before.length + left = (before ++ List.replicate left ' ').length := by simp
  rw [halves,place,List.take_left,List.drop_left,opens_behind left front,opens_blanks (right + 1) back]
  exact ⟨by simp [List.replicate_succ],marked⟩

theorem padding_seen (here : text[index]? = some ' ')
    (marked : opens (isOne mark) (text.take index).reverse = true ∨ opens (isOne mark) (text.drop index) = true) :
    Padding mark text index := by
  obtain ⟨right,behind,later,back⟩ := blank_front (text.drop index)
  obtain ⟨left,before,earlier,front⟩ := blank_front (text.take index).reverse
  have earlier : text.take index = before.reverse ++ List.replicate left ' ' := by
    rw [← List.reverse_reverse (text.take index),earlier,List.reverse_append,List.reverse_replicate]
  rw [← List.getLast?_reverse] at front
  rw [earlier,later,opens_behind left front,opens_blanks right back] at marked
  have within : index < text.length := (List.getElem?_eq_some_iff.mp here).1
  have place : before.reverse.length + left = index := by
    have length := congrArg List.length earlier
    rw [List.length_take,List.length_append,List.length_replicate] at length
    omega
  have some : 0 < right := by
    refine Nat.pos_of_ne_zero fun none => back ?_
    rw [none,List.replicate_zero,List.nil_append] at later
    rw [← later,List.head?_drop,here]
  refine ⟨before.reverse,left + right,behind,⟨?_,front,back⟩,by omega,by omega,marked⟩
  rw [List.replicate_add,← List.append_assoc,← earlier,List.append_assoc,← later,List.take_append_drop]

theorem padding_iff : Padding mark text index ↔ text[index]? = some ' ' ∧
    (opens (isOne mark) (text.take index).reverse = true ∨ opens (isOne mark) (text.drop index) = true) :=
  ⟨Padding.seen,fun seen => padding_seen seen.1 seen.2⟩

instance (mark : Char) (text : Text) (index : Nat) : Decidable (Padding mark text index) :=
  decidable_of_iff _ padding_iff.symm

def spared (mark : Char) (text : Text) : Text :=
  (text.zipIdx.filter fun place => ¬Padding mark text place.2).map Prod.fst

theorem squeeze_spared (front rest : Text) :
    squeeze (isOne mark) (isOne mark) (opens (isOne mark) front.reverse) rest =
      ((rest.zipIdx front.length).filter fun place => ¬Padding mark (front ++ rest) place.2).map Prod.fst := by
  induction rest generalizing front with
  | nil => rfl
  | cons c rest ih =>
    have later := ih (front ++ [c])
    rw [List.append_assoc,List.singleton_append,List.length_append,List.reverse_append,List.reverse_singleton,
      List.singleton_append] at later
    have padded : Padding mark (front ++ c :: rest) front.length ↔ c = ' ' ∧
        (opens (isOne mark) front.reverse = true ∨ opens (isOne mark) (c :: rest) = true) := by
      rw [padding_iff,List.take_left,List.drop_left]
      simp
    rw [List.zipIdx_cons,List.filter_cons]
    cases visible : isSpace c with
    | false =>
      rw [opens_visible visible] at later
      have kept : ¬Padding mark (front ++ c :: rest) front.length := by
        rw [padded]
        rintro ⟨rfl,_⟩
        cases visible
      rw [squeeze_visible visible,later,if_pos (decide_eq_true kept)]
      rfl
    | true =>
      rw [opens_space visible] at later
      rw [opens_space visible] at padded
      cases gone : opens (isOne mark) front.reverse || opens (isOne mark) rest with
      | true =>
        have dropped : Padding mark (front ++ c :: rest) front.length :=
          padded.mpr ⟨eq_of_beq visible,by simpa using gone⟩
        rw [squeeze_dropped visible gone,later,if_neg (by simpa using dropped)]
        rfl
      | false =>
        obtain ⟨passed,ahead⟩ := Bool.or_eq_false_iff.mp gone
        have kept : ¬Padding mark (front ++ c :: rest) front.length := by
          rw [padded,passed,ahead]
          simp
        rw [squeeze_kept visible gone,← passed,later,if_pos (decide_eq_true kept)]
        rfl

theorem collapse_spared (visible : isSpace mark = false) (text : Text) : collapse [mark] text = spared mark text := by
  rw [collapse_squeeze visible]
  exact squeeze_spared [] text

section Pulled

variable {mark before after tail : Text}

inductive Pulled (mark : Text) : Text → Text → Prop where
  | nil : Pulled mark [] []
  | keep {c : Char} {before after : Text} (later : Pulled mark before after) :
      Pulled mark (c :: before) (c :: after)
  | pull {before after : Text} (marked : mark <+: after) (later : Pulled mark before after) :
      Pulled mark (' ' :: before) after

theorem Pulled.behind (front : Text) (later : Pulled mark before after) :
    Pulled mark (front ++ before) (front ++ after) := by
  induction front with
  | nil => exact later
  | cons c front ih => exact .keep ih

theorem pulled_replaceFrom (passing : Nat) (text : Text) :
    Pulled mark (text.drop passing) (Text.replaceFrom (' ' :: mark) mark passing text) := by
  induction text generalizing passing with
  | nil => cases passing <;> exact .nil
  | cons c rest ih =>
    cases passing with
    | succ passing => exact ih passing
    | zero =>
      rw [Text.replaceFrom]
      split
      · rename_i found
        obtain ⟨tail,joined⟩ := List.isPrefixOf_iff_prefix.mp found
        have later := ih ((' ' :: mark).length - 1)
        rw [Text.drop_occurrence (by simp) joined] at later
        rw [List.drop_zero,← joined]
        exact .pull (List.prefix_append _ _) (later.behind mark)
      · exact .keep (ih 0)

theorem mark_apart (spaceless : ' ' ∉ mark) (within : tail.length < mark.length) :
    ¬mark <+: tail ++ ' ' :: after := by
  rintro ⟨rest,joined⟩
  apply spaceless
  have blank : (mark ++ rest)[tail.length]? = some ' ' := by rw [joined]; simp
  rw [List.getElem?_append_left within] at blank
  exact List.mem_of_getElem? blank

-- What is left of a mark with a blank behind it leaves no room for another mark, so that
-- no blank was taken away in there.
theorem Pulled.closed (pulled : Pulled mark before (tail ++ ' ' :: after)) (within : tail.length < mark.length)
    (spaceless : ' ' ∉ mark) : tail ++ [' '] <+: before := by
  induction tail generalizing before with
  | nil =>
    cases pulled with
    | keep later => exact ⟨_,rfl⟩
    | pull marked later => exact absurd marked (mark_apart spaceless within)
  | cons c tail ih =>
    cases pulled with
    | keep later =>
      obtain ⟨rest,joined⟩ := ih later (Nat.lt_of_succ_lt within)
      exact ⟨rest,by rw [← joined]; rfl⟩
    | pull marked later => exact absurd marked (mark_apart spaceless within)

theorem Pulled.occurs (pulled : Pulled mark before after) (nonempty : mark ≠ []) (spaceless : ' ' ∉ mark)
    (within : mark ++ [' '] <:+: after) : mark ++ [' '] <:+: before := by
  induction pulled with
  | nil => exact within
  | pull marked later ih => exact (ih within).trans (List.suffix_cons _ _).isInfix
  | @keep c before after later ih =>
    rcases List.infix_cons_iff.mp within with ⟨rest,joined⟩ | inside
    · obtain ⟨d,tail,rfl⟩ := List.exists_cons_of_ne_nil nonempty
      obtain ⟨rfl,shape⟩ := List.cons_eq_cons.mp joined
      have shape : tail ++ ' ' :: rest = after := by simpa using shape
      rw [← shape] at later
      obtain ⟨left,front⟩ := later.closed (Nat.lt_succ_self _) spaceless
      exact ⟨[],left,by rw [← front]; rfl⟩
    · exact (ih inside).trans (List.suffix_cons _ _).isInfix

theorem settle_opening_absent (nonempty : mark ≠ []) (spaceless : ' ' ∉ mark) {text : Text}
    (absent : ¬mark ++ [' '] <:+: text) :
    ¬mark ++ [' '] <:+: Text.settle (Text.replaceAll (' ' :: mark) mark) text := by
  fun_induction Text.settle (Text.replaceAll (' ' :: mark) mark) text with
  | case1 text next shorter ih =>
    have pulled : Pulled mark text next := pulled_replaceFrom 0 text
    exact ih fun within => absent (pulled.occurs nonempty spaceless within)
  | case2 text next settled => exact absent

theorem collapse_closing (nonempty : mark ≠ []) (spaceless : ' ' ∉ mark) (text : Text) :
    ¬mark ++ [' '] <:+: collapse mark text :=
  settle_opening_absent nonempty spaceless
    (Text.replaceRound_ended (Text.settle_ends (loses_closing mark) (by simp) text))

theorem collapse_opening (mark text : Text) : ¬ ' ' :: mark <:+: collapse mark text :=
  Text.replaceRound_ended (Text.settle_ends (loses_opening mark) (by simp) _)

theorem collapse_collapse (nonempty : mark ≠ []) (spaceless : ' ' ∉ mark) (text : Text) :
    collapse mark (collapse mark text) = collapse mark text := by
  have closed : Text.settle (Text.replaceAll (mark ++ [' ']) mark) (collapse mark text) = collapse mark text :=
    Text.settle_fixed (Text.replaceAll_absent (collapse_closing nonempty spaceless text))
  have opened : Text.settle (Text.replaceAll (' ' :: mark) mark) (collapse mark text) = collapse mark text :=
    Text.settle_fixed (Text.replaceAll_absent (collapse_opening mark text))
  rw [collapse.eq_def mark (collapse mark text),closed,opened]

end Pulled

theorem collapse_padding (mark text : Text) :
    (∃ closed, Ends (Text.replaceRound (mark ++ [' ']) mark) text closed ∧
      Ends (Text.replaceRound (' ' :: mark) mark) closed (collapse mark text)) ∧
    (∀ c, mark = [c] → c ≠ ' ' → collapse mark text = spared c text) ∧
    (mark ≠ [] → ' ' ∉ mark →
      ¬mark ++ [' '] <:+: collapse mark text ∧ ¬ ' ' :: mark <:+: collapse mark text ∧
      Text.Loses isSpace text (collapse mark text) ∧
      collapse mark (collapse mark text) = collapse mark text) := by
  refine ⟨collapse_ends mark text,?_,?_⟩
  · rintro c rfl visible
    exact collapse_spared (by simpa [isSpace] using visible) text
  · intro nonempty spaceless
    exact ⟨collapse_closing nonempty spaceless text,collapse_opening mark text,loses_collapse mark text,
      collapse_collapse nonempty spaceless text⟩

theorem collapse_padding_overlapping :
    let text := " a aa  a b aa".toList
    (collapse ['('] "a  (  b c ( ".toList = spared '(' "a  (  b c ( ".toList ∧
      spared '(' "a  (  b c ( ".toList = "a(b c(".toList) ∧
    collapse ['a','a'] text = "aaaabaa".toList ∧
    ¬['a','a'] ++ [' '] <:+: collapse ['a','a'] text ∧ ¬ ' ' :: ['a','a'] <:+: collapse ['a','a'] text ∧
    Text.Loses isSpace text (collapse ['a','a'] text) ∧
    collapse ['a','a'] (collapse ['a','a'] text) = collapse ['a','a'] text := by
  intro text
  have single := (collapse_padding ['('] "a  (  b c ( ".toList).2.1 '(' rfl (by decide)
  have longer := (collapse_padding ['a','a'] text).2.2 (by decide) (by decide)
  exact ⟨⟨single,by decide +kernel⟩,by decide +kernel,longer⟩

end PathExpr.Sugar
