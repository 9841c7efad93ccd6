import PathExpr.Proofs.Rounds

-- The spaces that go beside marks, told in one sweep over a text from front to back. The
-- replacements that are made until none is left come to the same, and so do several of
-- them in a row.
namespace PathExpr.Sugar

variable {closing opening : Char → Bool} {shut : Bool} {mark c : Char} {before after text front rest : Text}

def opens (opening : Char → Bool) (text : Text) : Bool := (text.find? fun c => !isSpace c).any opening

-- Blanks go behind characters of one kind and in front of those of another. Whether
-- those that come next have to go is settled beforehand for what stands in front of
-- them, and looked up for what ends their run.
def squeeze (closing opening : Char → Bool) : Bool → Text → Text
  | _,[] => []
  | shut,c :: rest =>
    if isSpace c then
      if shut || opens opening rest then squeeze closing opening shut rest
      else c :: squeeze closing opening false rest
    else c :: squeeze closing opening (closing c) rest

theorem opens_space (space : isSpace c = true) : opens opening (c :: rest) = opens opening rest := by
  simp [opens,space]

theorem opens_visible (visible : isSpace c = false) : opens opening (c :: rest) = opening c := by
  simp [opens,visible]

theorem find_loses (loses : Text.Loses isSpace before after) :
    (after.find? fun c => !isSpace c) = before.find? fun c => !isSpace c := by
  have kept : after.filter (fun c => !isSpace c) = before.filter fun c => !isSpace c :=
    loses.filter fun c space => by rw [space]; rfl
  rw [← List.head?_filter,← List.head?_filter,kept]

theorem opens_loses (loses : Text.Loses isSpace before after) : opens opening after = opens opening before := by
  rw [opens,opens,find_loses loses]

theorem squeeze_visible (visible : isSpace c = false) :
    squeeze closing opening shut (c :: rest) = c :: squeeze closing opening (closing c) rest := by
  rw [squeeze,visible]
  rfl

theorem squeeze_dropped (space : isSpace c = true) (gone : (shut || opens opening rest) = true) :
    squeeze closing opening shut (c :: rest) = squeeze closing opening shut rest := by
  rw [squeeze,space,gone]
  rfl

theorem squeeze_kept (space : isSpace c = true) (stays : (shut || opens opening rest) = false) :
    squeeze closing opening shut (c :: rest) = c :: squeeze closing opening false rest := by
  rw [squeeze,space,stays]
  rfl

theorem squeeze_opens (opened : opens opening text = true) (shut : Bool) :
    ∃ c, opening c = true ∧ (squeeze closing opening shut text).head? = some c := by
  induction text with
  | nil => cases opened
  | cons c rest ih =>
    cases space : isSpace c with
    | true =>
      rw [opens_space space] at opened
      rw [squeeze_dropped space (by rw [opened,Bool.or_true])]
      exact ih opened
    | false =>
      rw [opens_visible space] at opened
      exact ⟨c,opened,by rw [squeeze_visible space]; rfl⟩

theorem loses_squeeze (closing opening : Char → Bool) (shut : Bool) (text : Text) :
    Text.Loses isSpace text (squeeze closing opening shut text) := by
  induction text generalizing shut with
  | nil => exact .nil
  | cons c rest ih =>
    rw [squeeze]
    split
    · rename_i space
      split
      · exact .drop space (ih shut)
      · exact .keep (ih false)
    · exact .keep (ih (closing c))

theorem squeeze_squeeze (closing opening more further : Char → Bool) (shut late : Bool) (text : Text) :
    squeeze more further late (squeeze closing opening shut text) =
      squeeze (fun c => closing c || more c) (fun c => opening c || further c) (shut || late) text := by
  have either (text : Text) :
      opens (fun c => opening c || further c) text = (opens opening text || opens further text) := by
    unfold opens
    cases text.find? fun c => !isSpace c <;> rfl
  induction text generalizing shut late with
  | nil => rfl
  | cons c rest ih =>
    have same : opens further (squeeze closing opening false rest) = opens further rest :=
      opens_loses (loses_squeeze closing opening false rest)
    cases visible : isSpace c with
    | false => rw [squeeze_visible visible,squeeze_visible visible,squeeze_visible visible,ih]
    | true =>
      cases first : shut || opens opening rest with
      | true =>
        rw [squeeze_dropped visible first,ih,squeeze_dropped visible]
        rw [either]
        cases shut <;> simp_all
      | false =>
        obtain ⟨rfl,unopened⟩ := Bool.or_eq_false_iff.mp first
        rw [squeeze_kept visible first]
        cases second : late || opens further rest with
        | true =>
          rw [squeeze_dropped visible (by rw [same,second]),ih,squeeze_dropped visible]
          rw [either,unopened]
          simpa using second
        | false =>
          obtain ⟨rfl,_⟩ := Bool.or_eq_false_iff.mp second
          rw [squeeze_kept visible (by rw [same,second]),ih,squeeze_kept visible]
          · rfl
          · rw [either,unopened]
            simpa using second

theorem squeeze_cons (same : ∀ shut, squeeze closing opening shut before = squeeze closing opening shut after)
    (next : opens opening before = opens opening after) :
    squeeze closing opening shut (c :: before) = squeeze closing opening shut (c :: after) := by
  rw [squeeze,squeeze,next,same,same,same]

theorem squeeze_replaceFrom {old : Text} (room : old ≠ []) (same : Text.Loses isSpace old [mark])
    (occurs : ∀ shut rest, squeeze closing opening shut (old ++ rest) = squeeze closing opening shut (mark :: rest))
    (passing : Nat) (text : Text) (shut : Bool) :
    squeeze closing opening shut (Text.replaceFrom old [mark] passing text) =
      squeeze closing opening shut (text.drop passing) := by
  induction text generalizing passing shut with
  | nil => cases passing <;> rfl
  | cons c rest ih =>
    cases passing with
    | succ passing => exact ih passing shut
    | zero =>
      rw [Text.replaceFrom]
      split
      · rename_i found
        obtain ⟨tail,joined⟩ := List.isPrefixOf_iff_prefix.mp found
        have later := Text.loses_replaceFrom room same (old.length - 1) rest
        have behind := Text.drop_occurrence room joined
        rw [behind] at later
        rw [List.drop_zero,← joined,occurs]
        apply squeeze_cons
        · intro shut
          rw [← behind]
          exact ih _ shut
        · exact opens_loses later
      · exact squeeze_cons (ih 0) (opens_loses (Text.loses_replaceFrom room same 0 rest))

theorem squeeze_closing (visible : isSpace mark = false) (marked : closing mark = true) (shut : Bool)
    (rest : Text) : squeeze closing opening shut (([mark] ++ [' ']) ++ rest) =
      squeeze closing opening shut (mark :: rest) := by
  simp only [List.cons_append,List.nil_append]
  rw [squeeze_visible visible,squeeze_visible visible,marked,squeeze_dropped rfl rfl]

theorem squeeze_opening (visible : isSpace mark = false) (marked : opening mark = true) (shut : Bool)
    (rest : Text) : squeeze closing opening shut ((' ' :: [mark]) ++ rest) =
      squeeze closing opening shut (mark :: rest) := by
  simp only [List.cons_append,List.nil_append]
  apply squeeze_dropped rfl
  rw [opens_visible visible,marked,Bool.or_true]

def Apart (closing opening : Char → Bool) (text : Text) : Prop :=
  text.IsChain fun one next => ¬(closing one = true ∧ isSpace next = true) ∧
    ¬(isSpace one = true ∧ opening next = true)

theorem apart_opens (space : isSpace c = true) (apart : Apart closing opening (c :: rest)) :
    opens opening rest = false := by
  induction rest generalizing c with
  | nil => rfl
  | cons d rest ih =>
    obtain ⟨first,later⟩ := List.isChain_cons_cons.mp apart
    cases visible : isSpace d with
    | true =>
      rw [opens_space visible]
      exact ih visible later
    | false =>
      rw [opens_visible visible]
      exact Bool.eq_false_iff.mpr fun marked => first.2 ⟨space,marked⟩

theorem squeeze_apart (free : shut = true → ∀ c ∈ text.head?, isSpace c = false)
    (apart : Apart closing opening text) : squeeze closing opening shut text = text := by
  induction text generalizing shut with
  | nil => rfl
  | cons c rest ih =>
    have later : Apart closing opening rest := List.IsChain.tail apart
    cases visible : isSpace c with
    | true =>
      have kept : (shut || opens opening rest) = false := by
        rw [apart_opens visible apart,Bool.or_false]
        exact Bool.eq_false_iff.mpr fun closed => by simp [free closed c rfl] at visible
      rw [squeeze_kept visible kept,ih (fun closed => absurd closed Bool.false_ne_true) later]
    | false =>
      rw [squeeze_visible visible,ih _ later]
      intro closed d next
      cases rest with
      | nil => cases next
      | cons e rest =>
        cases next
        exact Bool.eq_false_iff.mpr fun space => (List.isChain_cons_cons.mp apart).1.1 ⟨closed,space⟩

theorem squeeze_markless (unmarked : ∀ c ∈ text, closing c = false ∧ opening c = false) :
    squeeze closing opening false text = text := by
  apply squeeze_apart (fun closed => absurd closed Bool.false_ne_true)
  apply (List.isChain_isInfix text).imp
  intro one next within
  have first := (unmarked one (within.subset (by simp))).1
  have second := (unmarked next (within.subset (by simp))).2
  simp [first,second]

theorem settle_squeeze {old : Text} (same : Text.Loses isSpace old [mark]) (shorter : 1 < old.length)
    (occurs : ∀ shut rest, squeeze closing opening shut (old ++ rest) = squeeze closing opening shut (mark :: rest))
    (absent : ∀ text, ¬old <:+: text → Apart closing opening text) (text : Text) :
    Text.settle (Text.replaceAll old [mark]) text = squeeze closing opening false text := by
  have room : old ≠ [] := List.length_pos_iff.mp (Nat.lt_of_succ_lt shorter)
  have swept : squeeze closing opening false (Text.settle (Text.replaceAll old [mark]) text) =
      squeeze closing opening false text := by
    fun_induction Text.settle (Text.replaceAll old [mark]) text with
    | case1 text next less ih => exact ih.trans (squeeze_replaceFrom room same occurs 0 text false)
    | case2 text next settled => rfl
  have ended := Text.replaceRound_ended (Text.settle_ends same shorter text)
  rw [← swept]
  exact (squeeze_apart (fun closed => absurd closed Bool.false_ne_true) (absent _ ended)).symm

def isOne (mark c : Char) : Bool := c == mark

theorem isOne_self (mark : Char) : isOne mark mark = true := beq_self_eq_true mark

theorem settle_closing (visible : isSpace mark = false) (text : Text) :
    Text.settle (Text.replaceAll ([mark] ++ [' ']) [mark]) text =
      squeeze (isOne mark) (fun _ => false) false text := by
  refine settle_squeeze (loses_closing [mark]) (by simp) (squeeze_closing visible (isOne_self mark)) ?_ text
  intro text absent
  apply (List.isChain_isInfix text).imp
  intro one next within
  refine ⟨?_,fun opened => Bool.false_ne_true opened.2⟩
  rintro ⟨marked,space⟩
  rw [eq_of_beq marked,eq_of_beq space] at within
  exact absent within

theorem settle_opening (visible : isSpace mark = false) (text : Text) :
    Text.settle (Text.replaceAll (' ' :: [mark]) [mark]) text =
      squeeze (fun _ => false) (isOne mark) false text := by
  refine settle_squeeze (loses_opening [mark]) (by simp) (squeeze_opening visible (isOne_self mark)) ?_ text
  intro text absent
  apply (List.isChain_isInfix text).imp
  intro one next within
  refine ⟨fun closed => Bool.false_ne_true closed.1,?_⟩
  rintro ⟨space,marked⟩
  rw [eq_of_beq marked,eq_of_beq space] at within
  exact absent within

theorem collapse_squeeze (visible : isSpace mark = false) (text : Text) :
    collapse [mark] text = squeeze (isOne mark) (isOne mark) false text := by
  have both : (fun c => isOne mark c || false) = isOne mark := by
    funext c
    exact Bool.or_false _
  rw [collapse]
  simp only [settle_closing visible,settle_opening visible,squeeze_squeeze,both]
  rfl

def tighten (text : Text) : Text := collapse ['('] (collapse [')'] (collapse ['\''] text))

theorem pass_tighten (text : Text) : pass text = dropSigil ['@'] (unwrapFilter (tighten text)) := rfl

theorem tighten_squeeze (text : Text) : tighten text = squeeze isMark isMark false text := by
  have marks : (fun c => isOne '\'' c || (isOne ')' c || isOne '(' c)) = isMark := by
    funext c
    simp only [isOne,isMark,Bool.or_assoc,Bool.or_comm (c == ')')]
  rw [tighten,collapse_squeeze rfl,collapse_squeeze rfl,collapse_squeeze rfl,squeeze_squeeze,squeeze_squeeze,marks]
  rfl

theorem loses_tighten (text : Text) : Text.Loses isSpace text (tighten text) := by
  rw [tighten_squeeze]
  exact loses_squeeze isMark isMark false text

theorem tighten_tighten (text : Text) : tighten (tighten text) = tighten text := by
  simp [tighten_squeeze,squeeze_squeeze]

theorem tighten_markless (markless : ∀ c ∈ text, isMark c = false) : tighten text = text := by
  rw [tighten_squeeze]
  exact squeeze_markless fun c member => ⟨markless c member,markless c member⟩

theorem markless_tighten (markless : ∀ c ∈ tighten text, isMark c = false) : ∀ c ∈ text, isMark c = false := by
  have kept : (tighten text).filter isMark = text.filter isMark :=
    (loses_tighten text).filter fun c space => by rw [eq_of_beq space]; rfl
  have none : text.filter isMark = [] := by
    rw [← kept]
    exact List.filter_eq_nil_iff.mpr fun c member => by simp [markless c member]
  intro c member
  exact Bool.eq_false_iff.mpr (List.filter_eq_nil_iff.mp none c member)

theorem pass_tightened (raw : Text) : pass (tighten raw) = pass raw := by
  rw [pass_tighten,pass_tighten,tighten_tighten]

theorem clean_tighten (raw : Text) : clean (tighten raw) = clean raw := clean_congr (pass_tightened raw)

theorem pass_other {raw : Text} (filtered : (tighten raw).head? ≠ some '?') (current : (tighten raw).head? ≠ some '@') :
    pass raw = tighten raw := by
  rw [pass_tighten,unwrapFilter_other filtered,dropSigil_other current]

theorem squeeze_start (first : text.head? = some c) (visible : isSpace c = false) (one two : Bool) :
    squeeze closing opening one text = squeeze closing opening two text := by
  cases text with
  | nil => cases first
  | cons d rest =>
    cases first
    rw [squeeze_visible visible,squeeze_visible visible]

theorem squeeze_cut (visible : isSpace c = false) (shut : Bool) (front rest : Text) :
    squeeze closing opening shut (front ++ c :: rest) =
      squeeze closing opening shut (front ++ [c]) ++ squeeze closing opening (closing c) rest := by
  induction front generalizing shut with
  | nil =>
    simp only [List.nil_append,squeeze_visible visible]
    rfl
  | cons d front ih =>
    have next : opens opening (front ++ c :: rest) = opens opening (front ++ [c]) := by
      simp only [opens,List.find?_append]
      cases front.find? fun c => !isSpace c <;> simp [visible]
    simp only [List.cons_append]
    rw [squeeze,squeeze,next,ih,ih,ih]
    split
    · split <;> rfl
    · rfl

theorem squeeze_end (closing opening : Char → Bool) (visible : isSpace c = false) (shut : Bool) (front : Text) :
    ∃ kept, Text.Loses isSpace front kept ∧ squeeze closing opening shut (front ++ [c]) = kept ++ [c] := by
  induction front generalizing shut with
  | nil => exact ⟨[],.nil,squeeze_visible visible⟩
  | cons d front ih =>
    rw [List.cons_append,squeeze]
    split
    · rename_i space
      split
      · obtain ⟨kept,loses,same⟩ := ih shut
        exact ⟨kept,.drop space loses,same⟩
      · obtain ⟨kept,loses,same⟩ := ih false
        exact ⟨d :: kept,.keep loses,congrArg (d :: ·) same⟩
    · obtain ⟨kept,loses,same⟩ := ih (closing d)
      exact ⟨d :: kept,.keep loses,congrArg (d :: ·) same⟩

theorem squeeze_spaces (spaces : ∀ c ∈ front, isSpace c = true) (gone : (shut || opens opening rest) = true) :
    squeeze closing opening shut (front ++ rest) = squeeze closing opening shut rest := by
  induction front with
  | nil => rfl
  | cons c front ih =>
    have space := spaces c List.mem_cons_self
    have later : ∀ d ∈ front, isSpace d = true := fun d member => spaces d (List.mem_cons_of_mem c member)
    have same : opens opening (front ++ rest) = opens opening rest := by
      have absent : front.find? (fun c => !isSpace c) = none := by
        rw [List.find?_eq_none]
        intro d member
        simp [later d member]
      rw [opens,List.find?_append,absent]
      rfl
    rw [List.cons_append,squeeze_dropped space (by rw [same,gone]),ih later]

theorem squeeze_enclosed (visible : isSpace mark = false) (marked : opening mark = true) (text rest : Text) :
    squeeze closing opening true (text ++ mark :: rest) =
      squeeze closing opening false (Text.trim isSpace text) ++ mark :: squeeze closing opening (closing mark) rest := by
  obtain ⟨front,behind,before,after,whole⟩ := Text.trim_parts isSpace text
  have close (shut : Bool) : squeeze closing opening shut (behind ++ mark :: rest) =
      mark :: squeeze closing opening (closing mark) rest := by
    rw [squeeze_spaces after (by rw [opens_visible visible,marked,Bool.or_true]),squeeze_visible visible]
  have start : squeeze closing opening true (text ++ mark :: rest) =
      squeeze closing opening true (Text.trim isSpace text ++ (behind ++ mark :: rest)) := by
    nth_rewrite 1 [whole]
    rw [List.append_assoc,List.append_assoc,squeeze_spaces before rfl]
  rw [start]
  rcases List.eq_nil_or_concat (Text.trim isSpace text) with empty | ⟨inner,last,inside⟩
  · rw [empty,List.nil_append,close]
    rfl
  · have visible : isSpace last = false := Text.trim_last (by rw [inside,List.concat_eq_append,List.getLast?_concat])
    rw [List.concat_eq_append] at inside
    rw [inside,List.append_assoc,List.singleton_append,squeeze_cut visible,close]
    congr 1
    rw [← inside]
    cases first : (Text.trim isSpace text).head? with
    | none => rw [List.head?_eq_none_iff.mp first]; rfl
    | some c => exact squeeze_start first (Text.trim_head first) true false

theorem squeeze_head (first : text.head? = some c) (visible : isSpace c = false) :
    (squeeze closing opening shut text).head? = some c := by
  cases text with
  | nil => cases first
  | cons d rest =>
    cases first
    rw [squeeze_visible visible]
    rfl

theorem squeeze_last (last : text.getLast? = some c) (visible : isSpace c = false) :
    (squeeze closing opening shut text).getLast? = some c := by
  obtain ⟨front,rfl⟩ := List.getLast?_eq_some_iff.mp last
  obtain ⟨kept,_,same⟩ := squeeze_end closing opening visible shut front
  rw [same,List.getLast?_concat]

theorem isBlank_of_isSpace (c : Char) (space : isSpace c = true) : Text.isBlank c = true := by
  rw [eq_of_beq space]
  exact Text.isBlank_space

theorem isSpace_clear (clear : Text.isBlank c = false) : isSpace c = false := by
  refine Bool.eq_false_iff.mpr fun space => ?_
  rw [isBlank_of_isSpace c space] at clear
  cases clear

theorem squeeze_inner {d : Char} (closing opening : Char → Bool) (first : text.head? = some c) (last : text.getLast? = some d)
    (visible : isSpace c = false) (seen : isSpace d = false) (shut : Bool) (front behind : Text) :
    ∃ kept left, Text.Loses isSpace front kept ∧ Text.Loses isSpace behind left ∧
      squeeze closing opening shut (front ++ text ++ behind) =
        kept ++ squeeze closing opening false text ++ left := by
  obtain ⟨rest,rfl⟩ := List.head?_eq_some_iff.mp first
  obtain ⟨kept,loses,start⟩ := squeeze_end closing opening visible shut front
  obtain ⟨inner,inside⟩ := List.getLast?_eq_some_iff.mp last
  refine ⟨kept,squeeze closing opening (closing d) behind,loses,loses_squeeze _ _ _ _,?_⟩
  have whole : c :: squeeze closing opening (closing c) (rest ++ behind) =
      squeeze closing opening false (c :: rest) ++ squeeze closing opening (closing d) behind := by
    have anew : squeeze closing opening false (c :: (rest ++ behind)) = _ := squeeze_visible visible
    rw [← anew,← List.cons_append,inside,List.append_assoc,List.singleton_append,squeeze_cut seen]
  rw [List.append_assoc,List.cons_append,squeeze_cut visible,start,List.append_assoc,List.singleton_append,whole,
    List.append_assoc]

theorem tighten_stripped {d : Char} (first : text.head? = some c) (last : text.getLast? = some d)
    (clear : Text.isBlank c = false) (free : Text.isBlank d = false) :
    Text.strip (tighten text) = tighten text := by
  rw [tighten_squeeze]
  apply Text.trim_fixed
  · rw [squeeze_head first (isSpace_clear clear)]
    rintro e ⟨⟩
    exact clear
  · rw [squeeze_last last (isSpace_clear free)]
    rintro e ⟨⟩
    exact free

theorem tighten_strip (text : Text) : Text.strip (tighten text) = tighten (Text.strip text) := by
  obtain ⟨front,behind,before,after,whole⟩ := Text.trim_parts Text.isBlank text
  rw [← Text.strip] at whole
  cases first : (Text.strip text).head? with
  | none =>
    have empty := List.head?_eq_none_iff.mp first
    have blank : ∀ c ∈ text, Text.isBlank c = true := by
      intro c member
      rw [whole,empty,List.append_nil] at member
      exact (List.mem_append.mp member).elim (before c) (after c)
    rw [empty,tighten_squeeze []]
    exact Text.trim_nil fun c member => blank c ((loses_tighten text).sublist.subset member)
  | some c =>
    cases last : (Text.strip text).getLast? with
    | none => rw [List.getLast?_eq_none_iff.mp last] at first; cases first
    | some d =>
      have clear : Text.isBlank c = false := Text.trim_head first
      have free : Text.isBlank d = false := Text.trim_last last
      obtain ⟨kept,left,one,two,swept⟩ :=
        squeeze_inner isMark isMark first last (isSpace_clear clear) (isSpace_clear free) false front behind
      rw [← whole,← tighten_squeeze,← tighten_squeeze] at swept
      rw [← tighten_stripped first last clear free,swept]
      apply Text.trim_padded
      · exact fun e member => before e (one.sublist.subset member)
      · exact fun e member => after e (two.sublist.subset member)

end PathExpr.Sugar
