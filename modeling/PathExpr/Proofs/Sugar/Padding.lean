import PathExpr.Proofs.Normal
import PathExpr.Proofs.Sugar.Filters

-- How far spaces around a text matter to its cleaning. Those in front never do. Those
-- behind do where a sigil is all that stands in front of them, or where a key is taken
-- out while they still stand behind it.
namespace PathExpr.Sugar

variable {raw text behind : Text} {sigil c : Char}

theorem tighten_fixed_iff : tighten text = text ↔ Unpadded text := by
  have collapses (mark text : Text) : (collapse mark text).Sublist text := (loses_collapse mark text).sublist
  have behindClosing (text : Text) := (collapses ['('] _).trans (collapses [')'] text)
  rw [unpadded_iff,tighten]
  refine (fixed_both (collapses ['\'']) behindClosing).trans (and_congr_right fun _ => ?_)
  exact fixed_both (collapses [')']) (collapses ['('])

theorem dropSigil_sigil (sigil : Char) (rest : Text) : dropSigil [sigil] (sigil :: ' ' :: rest) = rest.dropWhile isSpace := by
  rcases dropSigil_cases sigil (sigil :: ' ' :: rest) with same | ⟨inner,shape,dropped⟩
  · exact absurd ⟨rest,rfl⟩ (dropSigil_fixed_iff.mp same)
  · cases shape
    exact dropped

theorem dropWhile_cut (visible : isSpace c = false) (front behind : Text) :
    (front ++ c :: behind).dropWhile isSpace = front.dropWhile isSpace ++ c :: behind := by
  rw [List.dropWhile_append,List.dropWhile_cons_of_neg (by rw [visible]; exact Bool.false_ne_true)]
  split
  · rename_i empty
    rw [List.isEmpty_iff.mp empty]
    rfl
  · rfl

theorem dropSigil_ended (sigil : Char) (last : text.getLast? = some c) (visible : isSpace c = false) :
    dropSigil [sigil] text = text ∨ ∃ front, text = sigil :: ' ' :: (front ++ [c]) ∧
      dropSigil [sigil] text = front.dropWhile isSpace ++ [c] := by
  rcases dropSigil_cases sigil text with same | ⟨rest,rfl,dropped⟩
  · exact .inl same
  · rcases List.eq_nil_or_concat rest with rfl | ⟨front,d,rfl⟩
    · cases last
      cases visible
    · rw [List.concat_eq_append] at last dropped ⊢
      have same : d = c := by
        rw [← List.cons_append,← List.cons_append,List.getLast?_concat] at last
        exact Option.some.inj last
      subst same
      exact .inr ⟨front,rfl,by rw [dropped,dropWhile_cut visible]⟩

theorem dropSigil_last (sigil : Char) (last : text.getLast? = some c) (visible : isSpace c = false) :
    (dropSigil [sigil] text).getLast? = some c := by
  rcases dropSigil_ended sigil last visible with same | ⟨front,_,dropped⟩
  · rw [same,last]
  · rw [dropped,List.getLast?_concat]

theorem dropSigil_behind (last : text.getLast? = some c) (visible : isSpace c = false)
    (apart : text = [sigil] → behind.head? ≠ some ' ') :
    dropSigil [sigil] (text ++ behind) = dropSigil [sigil] text ++ behind := by
  rcases dropSigil_ended sigil last visible with same | ⟨front,rfl,dropped⟩
  · rw [same]
    have absent := dropSigil_fixed_iff.mp same
    apply dropSigil_fixed_iff.mpr
    rintro ⟨rest,whole⟩
    match text,whole with
    | [_],whole =>
      obtain ⟨rfl,next⟩ := List.cons.inj whole
      have first := congrArg List.head? next
      exact apart rfl first.symm
    | _ :: _ :: more,whole =>
      obtain ⟨rfl,later⟩ := List.cons.inj whole
      obtain ⟨rfl,_⟩ := List.cons.inj later
      exact absent ⟨more,rfl⟩
  · have split : sigil :: ' ' :: (front ++ [c]) ++ behind = sigil :: ' ' :: (front ++ c :: behind) := by simp
    rw [dropped,split,dropSigil_sigil,dropWhile_cut visible,List.append_assoc]
    rfl

inductive Sigils : Text → Prop where
  | filter : Sigils ['?']
  | current : Sigils ['@']
  | both {spaces : Text} (space : ∀ c ∈ spaces, isSpace c = true) : Sigils ('?' :: ' ' :: (spaces ++ ['@']))

-- Nothing but sigils and blanks, with a space where the rule of the last sigil looks for one.
def Spent (raw : Text) : Prop :=
  ∃ sigils blanks, Sigils sigils ∧ (∀ c ∈ blanks, Text.isBlank c = true) ∧ raw = sigils ++ ' ' :: blanks

def Overhung (raw : Text) : Prop :=
  isQuotedKey (pass raw) = true ∧ ∃ c, (tighten raw).getLast? = some c ∧ Text.isBlank c = true

theorem unwrapFilter_open (last : text.getLast? = some c) (other : c ≠ ')') :
    unwrapFilter text = dropSigil ['?'] text := by
  rcases unwrapFilter_cases text with same | ⟨inner,shape,_⟩
  · exact same
  · obtain ⟨front,joined⟩ := dropSigil_suffix '?' text
    rw [shape,← List.cons_append,← List.cons_append,← List.append_assoc] at joined
    rw [← joined,List.getLast?_concat] at last
    exact absurd (Option.some.inj last).symm other

theorem blank_head (blank : ∀ c ∈ text, Text.isBlank c = true) (clear : Text.isBlank c = false) :
    text.head? ≠ some c := by
  intro first
  rw [blank c (List.mem_of_head? first)] at clear
  cases clear

theorem blank_last (blank : ∀ c ∈ behind, Text.isBlank c = true) (nonempty : behind ≠ []) (text : Text) :
    ∃ c, (text ++ behind).getLast? = some c ∧ Text.isBlank c = true := by
  refine ⟨behind.getLast nonempty,?_,blank _ (List.getLast_mem nonempty)⟩
  rw [List.getLast?_append_of_ne_nil text nonempty,List.getLast?_eq_some_getLast nonempty]

theorem not_blank_mark (blank : Text.isBlank c = true) : isMark c = false := by
  refine Bool.eq_false_iff.mpr fun marks => ?_
  simp only [isMark,Bool.or_eq_true,beq_iff_eq] at marks
  rcases marks with (rfl | rfl) | rfl <;> cases blank

theorem isQuotedKey_append (quoted : isQuotedKey text = true) (behind : Text) :
    isQuotedKey (text ++ behind) = true := by
  obtain ⟨rest,rfl⟩ := isQuotedKey_front quoted
  rw [isQuotedKey_inner] at quoted
  rw [List.cons_append,List.cons_append,isQuotedKey_inner,List.length_append]
  omega

theorem sigils_apart (sigils : Sigils text) (blank : ∀ c ∈ behind, Text.isBlank c = true)
    (spare : ¬Spent (text ++ behind)) : behind.head? ≠ some ' ' := by
  intro next
  obtain ⟨blanks,rfl⟩ := List.head?_eq_some_iff.mp next
  exact spare ⟨text,blanks,sigils,fun c member => blank c (List.mem_cons_of_mem _ member),rfl⟩

theorem sigils_current (last : text.getLast? = some c) (visible : isSpace c = false)
    (alone : dropSigil ['?'] text = ['@']) : Sigils text := by
  rcases dropSigil_ended '?' last visible with same | ⟨front,rfl,dropped⟩
  · rw [← same,alone]
    exact .current
  · rw [alone] at dropped
    have empty : front.dropWhile isSpace = [] := by
      have lengths := congrArg List.length dropped
      apply List.eq_nil_of_length_eq_zero
      simp only [List.length_append,List.length_cons,List.length_nil] at lengths
      omega
    rw [empty] at dropped
    cases dropped
    exact .both (List.dropWhile_eq_nil_iff.mp empty)

section Behind

variable (last : text.getLast? = some c) (clear : Text.isBlank c = false) (tight : tighten (text ++ behind) = text ++ behind)
  (blank : ∀ c ∈ behind, Text.isBlank c = true) (nonempty : behind ≠ []) (spare : ¬Spent (text ++ behind))

include last clear tight blank nonempty spare

-- A pass takes the sigils in front and leaves the blanks behind, which hide a wrapper.
theorem pass_behind : pass (text ++ behind) = dropSigil ['@'] (dropSigil ['?'] text) ++ behind := by
  have visible := isSpace_clear clear
  have first := dropSigil_behind last visible (fun alone => sigils_apart (alone ▸ .filter) blank spare)
  have kept := dropSigil_last '?' last visible
  have second := dropSigil_behind kept visible (fun alone => sigils_apart (sigils_current last visible alone) blank spare)
  obtain ⟨d,ending,padded⟩ := blank_last blank nonempty text
  have other : d ≠ ')' := by
    rintro rfl
    cases padded
  rw [pass_tighten,tight,unwrapFilter_open ending other,first,second]

theorem clean_behind (unquoted : isQuotedKey (pass (text ++ behind)) = false) :
    clean (text ++ behind) = clean text := by
  have passed := pass_behind last clear tight blank nonempty spare
  have unpadded : Unpadded text := List.IsChain.left_of_append (tighten_fixed_iff.mp tight)
  have inside : tighten text = text := tighten_fixed_iff.mpr unpadded
  have outer : clean (text ++ behind) = clean (Text.strip (dropSigil ['@'] (dropSigil ['?'] text))) := by
    rw [clean_next unquoted,passed,Text.strip,Text.trim_behind _ blank,Text.strip]
  rcases unwrapFilter_cases text with same | ⟨inner,shape,unwrapped⟩
  · have alone : pass text = dropSigil ['@'] (dropSigil ['?'] text) := by
      rw [pass_tighten,inside,same]
    have plain : isQuotedKey (pass text) = false := by
      refine Bool.eq_false_iff.mpr fun quoted => ?_
      rw [passed,← alone,isQuotedKey_append quoted] at unquoted
      cases unquoted
    rw [outer,clean_next plain,alone]
  -- The wrapper that the first pass missed is left to the second.
  · have wrapper : dropSigil ['?'] text = inFilter inner := shape
    have whole : dropSigil ['@'] (inFilter inner) = inFilter inner := dropSigil_other (by simp [inFilter])
    have within : tighten (inFilter inner) = inFilter inner := by
      rw [← wrapper]
      exact tighten_fixed_iff.mpr (List.IsChain.suffix unpadded (dropSigil_suffix '?' text))
    rw [outer,wrapper,whole,strip_inFilter]
    apply clean_congr
    rw [pass_tighten,pass_tighten,within,inside,unwrapFilter_inFilter,unwrapped]

end Behind

theorem sigils_markless (sigils : Sigils text) : ∀ c ∈ text, isMark c = false := by
  intro c member
  cases sigils with
  | filter | current =>
    rw [List.mem_singleton.mp member]
    rfl
  | both space =>
    simp only [List.mem_cons,List.mem_append,List.not_mem_nil,or_false] at member
    rcases member with rfl | rfl | within | rfl
    · rfl
    · rfl
    · rw [eq_of_beq (space c within)]
      rfl
    · rfl

theorem sigils_head (sigils : Sigils text) : text.head? = some '?' ∨ text.head? = some '@' := by
  cases sigils with
  | filter | both => exact .inl rfl
  | current => exact .inr rfl

theorem sigils_last (sigils : Sigils text) : text.getLast? = some '?' ∨ text.getLast? = some '@' := by
  cases sigils with
  | filter => exact .inl rfl
  | current => exact .inr rfl
  | both space => exact .inr (List.getLast?_concat (l:=_ :: _ :: _))

theorem sigils_strip (sigils : Sigils text) : Text.strip text = text := by
  apply Text.trim_fixed
  · intro c first
    rcases sigils_head sigils with same | same <;> rw [same] at first <;> cases first <;> rfl
  · intro c last
    rcases sigils_last sigils with same | same <;> rw [same] at last <;> cases last <;> rfl

theorem blank_spaced {blanks : Text} (blank : ∀ c ∈ blanks, Text.isBlank c = true) :
    ∀ c ∈ ' ' :: blanks, Text.isBlank c = true := by
  intro c member
  rcases List.mem_cons.mp member with rfl | later
  · exact Text.isBlank_space
  · exact blank c later

theorem spent_markless (spent : Spent raw) : ∀ c ∈ raw, isMark c = false := by
  obtain ⟨text,blanks,sigils,blank,rfl⟩ := spent
  intro c member
  rcases List.mem_append.mp member with within | behind
  · exact sigils_markless sigils c within
  · exact not_blank_mark (blank_spaced blank c behind)

theorem spent_last (spent : Spent raw) : ∃ c, raw.getLast? = some c ∧ Text.isBlank c = true := by
  obtain ⟨text,blanks,_,blank,rfl⟩ := spent
  exact blank_last (blank_spaced blank) (List.cons_ne_nil _ _) text

theorem pass_spent (spent : Spent raw) : ∀ c ∈ pass raw, Text.isBlank c = true := by
  obtain ⟨d,last,padded⟩ := spent_last spent
  have other : d ≠ ')' := by
    rintro rfl
    cases padded
  rw [pass_tighten,tighten_markless (spent_markless spent),unwrapFilter_open last other]
  obtain ⟨text,blanks,sigils,blank,rfl⟩ := spent
  have left : ∀ c ∈ blanks.dropWhile isSpace, Text.isBlank c = true :=
    fun c member => blank c ((List.dropWhile_suffix isSpace).subset member)
  suffices used : dropSigil ['@'] (dropSigil ['?'] (text ++ ' ' :: blanks)) = blanks.dropWhile isSpace by
    rwa [used]
  cases sigils with
  | filter => exact (congrArg (dropSigil ['@']) (dropSigil_sigil '?' blanks)).trans (dropSigil_other (blank_head left rfl))
  | current => exact dropSigil_sigil '@' blanks
  | @both spaces space =>
    have split : '?' :: ' ' :: (spaces ++ ['@']) ++ ' ' :: blanks = '?' :: ' ' :: (spaces ++ '@' :: ' ' :: blanks) := by
      simp
    rw [split,dropSigil_sigil,dropWhile_cut rfl,List.dropWhile_eq_nil_iff.mpr space]
    exact dropSigil_sigil '@' blanks

theorem clean_sigils (sigils : Sigils text) : clean text ≠ [] := by
  have alone : clean ['@'] ≠ [] := by decide +kernel
  cases sigils with
  | filter => decide +kernel
  | current => exact alone
  | @both spaces space =>
    have last : ('?' :: ' ' :: (spaces ++ ['@'])).getLast? = some '@' := List.getLast?_concat (l:=_ :: _ :: _)
    have passed : pass ('?' :: ' ' :: (spaces ++ ['@'])) = ['@'] := by
      rw [pass_tighten,tighten_markless (sigils_markless (.both space)),unwrapFilter_open last (by decide),
        dropSigil_sigil,dropWhile_cut rfl,List.dropWhile_eq_nil_iff.mpr space]
      rfl
    rw [clean_next (by rw [passed]; rfl),passed]
    exact alone

theorem clean_spent (spent : Spent raw) : clean raw = [] ∧ clean (Text.strip raw) ≠ [] := by
  constructor
  · have unquoted : isQuotedKey (pass raw) = false := isQuotedKey_other (blank_head (pass_spent spent) rfl)
    rw [clean_next unquoted,Text.strip,Text.trim_nil (pass_spent spent)]
    decide +kernel
  · obtain ⟨text,blanks,sigils,blank,rfl⟩ := spent
    rw [Text.strip,Text.trim_behind _ (blank_spaced blank),← Text.strip,sigils_strip sigils]
    exact clean_sigils sigils

theorem tighten_head (first : raw.head? = some c) (blank : Text.isBlank c = true) :
    ∃ d, (tighten raw).head? = some d ∧ (Text.isBlank d || isMark d) = true := by
  obtain ⟨rest,rfl⟩ := List.head?_eq_some_iff.mp first
  have same : (Text.isBlank c || isMark c) = true := by rw [blank,Bool.true_or]
  rw [tighten_squeeze]
  cases space : isSpace c with
  | false => exact ⟨c,squeeze_head rfl space,same⟩
  | true =>
    cases opened : opens isMark rest with
    | false => exact ⟨c,by rw [squeeze_kept space (by rw [opened]; rfl)]; rfl,same⟩
    | true =>
      rw [squeeze_dropped space (by rw [opened]; rfl)]
      obtain ⟨mark,marked,head⟩ := squeeze_opens opened false
      exact ⟨mark,head,by rw [marked,Bool.or_true]⟩

theorem pass_outer (first : (tighten raw).head? = some c) (outer : (Text.isBlank c || isMark c) = true) :
    pass raw = tighten raw ∧ isQuotedKey (pass raw) = false := by
  have other (d : Char) (clear : (Text.isBlank d || isMark d) = false) : (tighten raw).head? ≠ some d := by
    rw [first]
    rintro ⟨⟩
    rw [clear] at outer
    cases outer
  have same := pass_other (other '?' rfl) (other '@' rfl)
  exact ⟨same,by rw [same]; exact isQuotedKey_other (other '[' rfl)⟩

theorem clean_front (first : (tighten raw).head? = some c) (blank : Text.isBlank c = true) :
    clean raw = clean (Text.strip (tighten raw)) := by
  obtain ⟨same,unquoted⟩ := pass_outer first (by rw [blank,Bool.true_or])
  rw [clean_next unquoted,same]

theorem spent_tighten (spent : Spent (tighten raw)) : Spent raw := by
  rwa [tighten_markless (markless_tighten (spent_markless spent))] at spent

theorem strip_behind (first : text.head? = some c) (clear : Text.isBlank c = false) :
    ∃ behind d, text = Text.strip text ++ behind ∧ (∀ c ∈ behind, Text.isBlank c = true) ∧
      (Text.strip text).getLast? = some d := by
  obtain ⟨front,behind,before,after,whole⟩ := Text.trim_parts Text.isBlank text
  rw [← Text.strip] at whole
  have start : front = [] := by
    cases front with
    | nil => rfl
    | cons e front =>
      rw [whole] at first
      cases first
      rw [before _ List.mem_cons_self] at clear
      cases clear
  rw [start,List.nil_append] at whole
  cases last : (Text.strip text).getLast? with
  | some d => exact ⟨behind,d,whole,after,rfl⟩
  | none =>
    rw [List.getLast?_eq_none_iff.mp last,List.nil_append] at whole
    exact absurd first (whole ▸ blank_head after clear)

theorem clean_strip (spare : ¬Spent raw) (held : ¬Overhung raw) : clean raw = clean (Text.strip raw) := by
  rw [← clean_tighten (Text.strip raw),← tighten_strip]
  cases first : (tighten raw).head? with
  | none => rw [← clean_tighten raw,List.head?_eq_none_iff.mp first]; rfl
  | some c =>
    cases front : Text.isBlank c with
    | true => exact clean_front first front
    | false =>
      obtain ⟨behind,d,whole,blank,last⟩ := strip_behind first front
      rw [← clean_tighten raw]
      by_cases empty : behind = []
      · rw [empty,List.append_nil] at whole
        rw [← whole]
      · obtain ⟨e,ending,padded⟩ := blank_last blank empty (Text.strip (tighten raw))
        have unquoted : isQuotedKey (pass (tighten raw)) = false := by
          rw [pass_tightened]
          refine Bool.eq_false_iff.mpr fun quoted => held ⟨quoted,e,?_,padded⟩
          rw [whole,ending]
        have tight := tighten_tighten raw
        have spareTight : ¬Spent (tighten raw) := fun spent => spare (spent_tighten spent)
        rw [whole] at unquoted tight spareTight
        nth_rewrite 1 [whole]
        exact clean_behind last (Text.trim_last last) tight blank empty spareTight unquoted

theorem neither_front (first : raw.head? = some c) (blank : Text.isBlank c = true) : ¬Spent raw ∧ ¬Overhung raw := by
  constructor
  · rintro ⟨text,blanks,sigils,_,rfl⟩
    rcases sigils_head sigils with same | same <;> rw [List.head?_append,same] at first <;> cases first <;> cases blank
  · rintro ⟨quoted,_⟩
    obtain ⟨d,start,outer⟩ := tighten_head first blank
    rw [(pass_outer start outer).2] at quoted
    cases quoted

theorem neither_behind (closed : ∀ c ∈ raw.getLast?, Text.isBlank c = false) : ¬Spent raw ∧ ¬Overhung raw := by
  constructor
  · intro spent
    obtain ⟨c,last,blank⟩ := spent_last spent
    rw [closed c last] at blank
    cases blank
  · rintro ⟨_,d,last,blank⟩
    cases whole : raw.getLast? with
    | none =>
      rw [List.getLast?_eq_none_iff.mp whole,tighten_squeeze] at last
      cases last
    | some c =>
      have clear := closed c whole
      rw [tighten_squeeze,squeeze_last whole (isSpace_clear clear)] at last
      cases last
      rw [clear] at blank
      cases blank

theorem clean_padded :
    (∀ {front raw behind : Text}, (∀ c ∈ front ++ behind, c = ' ') → ¬Overhung raw →
      ¬Overhung (front ++ raw ++ behind) →
      (clean (front ++ raw ++ behind) = clean raw ↔ (Spent raw ↔ Spent (front ++ raw ++ behind)))) ∧
    ∀ raw : Text, (∃ c ∈ raw.head?, Text.isBlank c = true) ∨ (∀ c ∈ raw.getLast?, Text.isBlank c = false) →
      ¬Spent raw ∧ ¬Overhung raw := by
  constructor
  · intro front raw behind spaces held heldAround
    have blank (c : Char) (member : c ∈ front ++ behind) : Text.isBlank c = true := by
      rw [spaces c member]
      exact Text.isBlank_space
    have trimmed : Text.strip (front ++ raw ++ behind) = Text.strip raw :=
      Text.trim_padded raw (fun c member => blank c (List.mem_append_left _ member))
        fun c member => blank c (List.mem_append_right _ member)
    by_cases alone : Spent raw <;> by_cases around : Spent (front ++ raw ++ behind)
    · rw [(clean_spent alone).1,(clean_spent around).1]
      exact iff_of_true rfl (iff_of_true alone around)
    · have differ := (clean_spent alone).2
      rw [← trimmed,← clean_strip around heldAround] at differ
      rw [(clean_spent alone).1]
      exact iff_of_false differ fun same => around (same.mp alone)
    · have differ := (clean_spent around).2
      rw [trimmed,← clean_strip alone held] at differ
      rw [(clean_spent around).1]
      exact iff_of_false differ.symm fun same => alone (same.mpr around)
    · rw [clean_strip around heldAround,trimmed,← clean_strip alone held]
      exact iff_of_true rfl (iff_of_false alone around)
  · rintro raw (⟨c,first,blank⟩ | closed)
    · exact neither_front first blank
    · exact neither_behind closed

theorem clean_padded_filter :
    let raw := "?( @ ['a'] )".toList
    (∀ c ∈ [' ',' '] ++ [' '], c = ' ') ∧ ¬Overhung raw ∧ ¬Overhung ([' ',' '] ++ raw ++ [' ']) ∧
      clean ([' ',' '] ++ raw ++ [' ']) = clean raw ∧ clean raw = ['a'] := by
  intro raw
  have spaces : ∀ c ∈ [' ',' '] ++ [' '], c = ' ' := by simp
  have closed : ∀ c ∈ raw.getLast?, Text.isBlank c = false := by
    have last : raw.getLast? = some ')' := by decide
    rw [last]
    rintro c ⟨⟩
    rfl
  obtain ⟨spare,held⟩ := clean_padded.2 raw (.inr closed)
  obtain ⟨spareAround,heldAround⟩ := clean_padded.2 ([' ',' '] ++ raw ++ [' ']) (.inl ⟨' ',rfl,rfl⟩)
  have same := (clean_padded.1 spaces held heldAround).mpr (iff_of_false spare spareAround)
  exact ⟨spaces,held,heldAround,same,by decide +kernel⟩

theorem sigil_padded :
    clean ['?'] = ['?'] ∧ clean ['?',' '] = [] ∧
      ¬∀ front raw behind : Text, (∀ c ∈ front ++ behind, c = ' ') →
        clean (front ++ raw ++ behind) = clean raw := by
  have alone : clean ['?'] = ['?'] := by decide +kernel
  have padded : clean ['?',' '] = [] := by decide +kernel
  refine ⟨alone,padded,?_⟩
  intro insignificant
  have same : clean ['?',' '] = clean ['?'] := insignificant [] ['?'] [' '] (by simp)
  rw [alone,padded] at same
  cases same

end PathExpr.Sugar
