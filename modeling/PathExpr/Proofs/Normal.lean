import PathExpr.Proofs.Excerpts
import PathExpr.Proofs.Substance

-- The texts that cleaning leaves alone, told without cleaning, and how far a cleaned
-- text is one of them.
namespace PathExpr

namespace Sugar

variable {text raw : Text}

theorem fixed_both {first second : Text → Text} (one : ∀ text, (first text).Sublist text)
    (two : ∀ text, (second text).Sublist text) :
    second (first text) = text ↔ first text = text ∧ second text = text := by
  constructor
  · intro same
    have whole := two (first text)
    rw [same] at whole
    have unchanged : first text = text := (one text).antisymm whole
    exact ⟨unchanged,by rwa [unchanged] at same⟩
  · rintro ⟨unchanged,same⟩
    rw [unchanged,same]

theorem collapse_fixed_iff {mark : Char} :
    collapse [mark] text = text ↔ ¬[mark,' '] <:+: text ∧ ¬[' ',mark] <:+: text := by
  have closing (text : Text) := Text.loses_settle (Text.loses_replaceAll (by simp) (loses_closing [mark])) text
  have opening (text : Text) := Text.loses_settle (Text.loses_replaceAll (by simp) (loses_opening [mark])) text
  refine (fixed_both (fun text => (closing text).sublist) fun text => (opening text).sublist).trans ?_
  apply and_congr
  · exact Text.settle_fixed_iff (loses_closing [mark]) (by simp)
  · exact Text.settle_fixed_iff (loses_opening [mark]) (by simp)

theorem unpadded_iff : Unpadded text ↔
    collapse ['\''] text = text ∧ collapse [')'] text = text ∧ collapse ['('] text = text := by
  constructor
  · intro unpadded
    exact ⟨collapse_unpadded rfl unpadded,collapse_unpadded rfl unpadded,collapse_unpadded rfl unpadded⟩
  · rintro ⟨quotes,closing,opening⟩
    have absent (mark : Char) (marks : isMark mark = true) :
        ¬[mark,' '] <:+: text ∧ ¬[' ',mark] <:+: text := by
      apply collapse_fixed_iff.mp
      simp only [isMark,Bool.or_eq_true,beq_iff_eq] at marks
      rcases marks with (rfl | rfl) | rfl
      · exact quotes
      · exact opening
      · exact closing
    apply (List.isChain_isInfix text).imp
    intro before after within
    constructor
    · rintro ⟨marks,rfl⟩
      exact (absent before marks).1 within
    · rintro ⟨rfl,marks⟩
      exact (absent after marks).2 within

theorem dropSigil_fixed_iff {sigil : Char} : dropSigil [sigil] text = text ↔ ¬[sigil,' '] <+: text := by
  constructor
  · rintro same ⟨rest,rfl⟩
    have found : ([sigil] ++ [' ']).isPrefixOf ([sigil,' '] ++ rest) = true :=
      List.isPrefixOf_iff_prefix.mpr (List.prefix_append _ _)
    have dropped : dropSigil [sigil] ([sigil,' '] ++ rest) = rest.dropWhile isSpace := if_pos found
    have bound := (List.dropWhile_suffix (l:=rest) isSpace).length_le
    rw [← dropped,same,List.length_append,List.length_cons] at bound
    omega
  · intro absent
    rcases dropSigil_cases sigil text with same | ⟨rest,rfl,_⟩
    · exact same
    · exact absurd ⟨rest,rfl⟩ absent

theorem unwrapFilter_fixed_iff : unwrapFilter text = text ↔
    ¬['?',' '] <+: text ∧ ¬(['?','('] <+: text ∧ [')'] <:+ text) := by
  rw [← dropSigil_fixed_iff]
  constructor
  · intro same
    have bare : dropSigil ['?'] text = text := by
      rcases unwrapFilter_cases text with unchanged | ⟨inner,shape,unwrapped⟩
      · rwa [unchanged] at same
      · have dropped : Text.Loses isSugar text (dropSigil ['?'] text) := loses_dropSigil rfl text
        have bound := dropped.sublist.length_le
        rw [shape,← unwrapped,same] at bound
        simp only [List.length_cons,List.length_append] at bound
        omega
    refine ⟨bare,?_⟩
    rintro ⟨front,back⟩
    have unwrapped : unwrapFilter text = (text.drop 2).dropLast := by
      simp [unwrapFilter,bare,List.isPrefixOf_iff_prefix.mpr front,List.isSuffixOf_iff_suffix.mpr back]
    have lengths := congrArg List.length unwrapped
    have room := front.length_le
    rw [same] at lengths
    simp only [List.length_dropLast,List.length_drop] at lengths
    simp only [List.length_cons,List.length_nil] at room
    omega
  · rintro ⟨bare,whole⟩
    rcases unwrapFilter_cases text with same | ⟨inner,shape,_⟩
    · exact same.trans bare
    · rw [bare] at shape
      exact absurd ⟨⟨inner ++ [')'],shape.symm⟩,⟨'?' :: '(' :: inner,shape.symm⟩⟩ whole

theorem pass_fixed_iff : pass text = text ↔
    Unpadded text ∧ unwrapFilter text = text ∧ dropSigil ['@'] text = text := by
  have collapses (mark text : Text) : (collapse mark text).Sublist text := (loses_collapse mark text).sublist
  have filter (text : Text) : (unwrapFilter text).Sublist text := (loses_unwrapFilter text).sublist
  have sigil (text : Text) : (dropSigil ['@'] text).Sublist text := (loses_dropSigil rfl text).sublist
  have behindFilter (text : Text) := (sigil _).trans (filter text)
  have behindOpening (text : Text) := (behindFilter _).trans (collapses ['('] text)
  have behindClosing (text : Text) := (behindOpening _).trans (collapses [')'] text)
  rw [unpadded_iff,and_assoc,and_assoc]
  refine (fixed_both (collapses ['\'']) behindClosing).trans (and_congr_right fun _ => ?_)
  refine (fixed_both (collapses [')']) behindOpening).trans (and_congr_right fun _ => ?_)
  refine (fixed_both (collapses ['(']) behindFilter).trans (and_congr_right fun _ => ?_)
  exact fixed_both filter sigil

theorem quotedKey_shorter (quoted : isQuotedKey text = true) : (quotedKey text).length < text.length := by
  have bound := (strip_within (text.drop 2).dropLast.dropLast).length_le
  simp only [isQuotedKey,Bool.and_eq_true,decide_eq_true_eq] at quoted
  simp only [List.length_dropLast,List.length_drop] at bound
  rw [quotedKey]
  omega

theorem clean_fixed_iff : clean raw = raw ↔
    pass raw = raw ∧ Text.strip raw = raw ∧ isQuotedKey raw = false := by
  have passed (text : Text) : (pass text).Sublist text := (loses_pass text).sublist
  have stripped (text : Text) : (Text.strip text).Sublist text := (Text.loses_trim text).sublist
  constructor
  · intro same
    rw [clean] at same
    split at same
    · rename_i quoted
      have shorter := quotedKey_shorter quoted
      have bound := (passed raw).length_le
      rw [same] at shorter
      omega
    · rename_i unquoted
      dsimp only at same
      split at same
      · rename_i shorter
        have bound := (clean_sublist (Text.strip (pass raw))).length_le
        rw [same] at bound
        omega
      · obtain ⟨unchanged,trimmed⟩ := (fixed_both passed stripped).mp same
        rw [unchanged] at unquoted
        exact ⟨unchanged,trimmed,Bool.eq_false_iff.mpr unquoted⟩
  · rintro ⟨unchanged,trimmed,unquoted⟩
    rw [clean,unchanged,trimmed,unquoted]
    simp

structure Normal (text : Text) : Prop where
  stripped : Text.strip text = text
  unpadded : Unpadded text
  unfiltered : ¬['?',' '] <+: text
  uncurrent : ¬['@',' '] <+: text
  unwrapped : ¬(['?','('] <+: text ∧ [')'] <:+ text)
  unquoted : isQuotedKey text = false

theorem clean_eq_iff : clean text = text ↔ Normal text := by
  rw [clean_fixed_iff,pass_fixed_iff,unwrapFilter_fixed_iff,dropSigil_fixed_iff]
  constructor
  · rintro ⟨⟨unpadded,⟨unfiltered,unwrapped⟩,uncurrent⟩,stripped,unquoted⟩
    exact ⟨stripped,unpadded,unfiltered,uncurrent,unwrapped,unquoted⟩
  · rintro ⟨stripped,unpadded,unfiltered,uncurrent,unwrapped,unquoted⟩
    exact ⟨⟨unpadded,⟨unfiltered,unwrapped⟩,uncurrent⟩,stripped,unquoted⟩

theorem clean_normal (unquoted : quotedKey? raw = none) : Normal (clean raw) := by
  fun_induction quotedKey? raw with
  | case1 raw bare quoted => cases unquoted
  | case2 raw bare plain next shorter ih =>
    have same : clean raw = clean next := by
      rw [clean,if_neg plain,if_pos shorter]
    rw [same]
    exact ih unquoted
  | case3 raw bare plain next settled =>
    have unchanged : next = raw := (strip_pass_sublist raw).eq_of_length_le (Nat.le_of_not_lt settled)
    have same : clean raw = raw := by
      rw [clean,if_neg plain,if_neg settled]
      exact unchanged
    rw [same]
    exact clean_eq_iff.mp same

theorem isQuotedKey_quote (quoted : isQuotedKey text = true) : '\'' ∈ text := by
  simp only [isQuotedKey,Bool.and_eq_true] at quoted
  have front := List.isPrefixOf_iff_prefix.mp quoted.2
  exact front.subset (by simp)

theorem quotedKey?_quoteless (quoteless : '\'' ∉ raw) : quotedKey? raw = none := by
  fun_induction quotedKey? raw with
  | case1 raw bare quoted =>
    have within := (loses_pass raw).sublist.subset (isQuotedKey_quote quoted)
    exact absurd within quoteless
  | case2 raw bare plain next shorter ih =>
    apply ih
    intro within
    exact quoteless ((strip_pass_sublist raw).subset within)
  | case3 => rfl

theorem cleanBracketed_normal (quoteless : '\'' ∉ raw) : Normal (cleanBracketed raw) := by
  have unquoted : ¬isQuotedKey (collapse ['\''] raw) = true := by
    intro quoted
    exact quoteless ((loses_collapse _ raw).sublist.subset (isQuotedKey_quote quoted))
  rw [cleanBracketed,if_neg unquoted]
  apply clean_normal
  apply quotedKey?_quoteless
  intro within
  exact quoteless (List.mem_of_mem_tail (List.mem_of_mem_dropLast within))

-- The content of a quoted key is literal, and is cleaned further by a second cleaning
-- where it is no normal form itself. Everything else is clean after the first.
theorem clean_twice (raw : Text) : clean (clean raw) = clean raw ↔
    ∀ key, quotedKey? raw = some key → Normal (quotedKey key) := by
  rw [clean_eq_iff]
  cases found : quotedKey? raw with
  | none => simpa using clean_normal found
  | some key =>
    rw [(quotedKey?_clean found).2]
    simp

theorem literal_not_clean :
    ¬∀ raw, isQuotedKey raw = false → clean (clean raw) = clean raw := by
  intro again
  have literal : clean " ['? b']".toList = "? b".toList := by decide +kernel
  have cleaned : clean "? b".toList = "b".toList := by decide +kernel
  have same := again " ['? b']".toList (by decide)
  rw [literal,cleaned] at same
  cases same

end Sugar

theorem Piece.fragment_normal {piece : Piece} (quoteless : '\'' ∉ piece.text) :
    Sugar.Normal piece.fragment.text := by
  cases piece with
  | root | descent => exact Sugar.clean_eq_iff.mp (by decide +kernel)
  | raw bracketed text =>
    cases bracketed with
    | false => exact Sugar.clean_normal (Sugar.quotedKey?_quoteless quoteless)
    | true => exact Sugar.cleanBracketed_normal quoteless

theorem Options.used_quoteless {path : Text} (options : Options) (quoteless : '\'' ∉ path) :
    '\'' ∉ options.used path := by
  unfold Options.used Admission.rooted
  split
  · split
    · exact quoteless
    · simpa using quoteless
  · exact quoteless

theorem tokenize_normal :
    (∀ text, Sugar.clean text = text ↔ Sugar.Normal text) ∧
    (∀ raw, Text.strip (Sugar.clean raw) = Sugar.clean raw) ∧
    (∀ raw, '\'' ∉ raw → Sugar.Normal (Sugar.clean raw)) ∧
    ∀ {options : Options} {path : Text} {tokenized : TokenizedPath},
      tokenize options path = .ok tokenized → '\'' ∉ path →
        ∀ fragment ∈ tokenized.fragments, Sugar.Normal fragment := by
  refine ⟨fun _ => Sugar.clean_eq_iff,?_,?_,?_⟩
  · intro raw
    obtain ⟨text,stripped⟩ := Sugar.clean_stripped raw
    rw [stripped]
    exact Text.trim_trim Text.isBlank text
  · intro raw quoteless
    exact Sugar.clean_normal (Sugar.quotedKey?_quoteless quoteless)
  · intro options path tokenized accepted quoteless fragment member
    obtain ⟨pieces,ran,rfl⟩ := tokenize_accepted accepted
    rw [TokenizedPath.ofPieces_fragments] at member
    obtain ⟨piece,within,rfl⟩ := List.mem_map.mp member
    apply Piece.fragment_normal
    intro quote
    have whole : '\'' ∈ pieces.flatMap Piece.text := List.mem_flatMap.mpr ⟨piece,within,quote⟩
    exact Options.used_quoteless options quoteless ((Mode.run_loses ran).sublist.subset whole)

theorem tokenize_normal_padded :
    let path := " @ x[? ?( ( @ .b ) ==1 )]..?(c)".toList
    let tokenized : TokenizedPath := ⟨path,
      [⟨"x".toList,0,false,false⟩,⟨"(@ .b)==1".toList,1,false,true⟩,⟨"..".toList,2,false,false⟩,
        ⟨['c'],3,true,false⟩]⟩
    tokenize {autoRoot:=false,checkCalls:=false} path = .ok tokenized ∧
      '\'' ∉ path ∧ (∀ fragment ∈ tokenized.fragments, Sugar.Normal fragment) ∧
      Sugar.clean "? ?( @ [ 1 ] )".toList = "[ 1 ]".toList ∧ '\'' ∉ "? ?( @ [ 1 ] )".toList ∧
      Sugar.Normal "[ 1 ]".toList := by
  intro path tokenized
  have accepted : tokenize {autoRoot:=false,checkCalls:=false} path = .ok tokenized := by decide +kernel
  have quoteless : '\'' ∉ path := by decide
  have cleaned : Sugar.clean "? ?( @ [ 1 ] )".toList = "[ 1 ]".toList := by decide +kernel
  have normal := tokenize_normal.2.2.1 "? ?( @ [ 1 ] )".toList (by decide)
  rw [cleaned] at normal
  exact ⟨accepted,quoteless,tokenize_normal.2.2.2 accepted quoteless,cleaned,by decide,normal⟩

end PathExpr
