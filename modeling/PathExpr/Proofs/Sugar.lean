import Mathlib.Data.List.Chain
import PathExpr.Proofs.Text
import PathExpr.Sugar

-- Laws of the sugar, rule by rule: which characters a rule can take away, and when
-- it has nothing to do.
namespace PathExpr.Sugar

def isSpace (c : Char) : Bool := c == ' '

def isSugar (c : Char) : Bool := [' ','?','(',')','@'].contains c

theorem isSugar_of_isSpace (c : Char) (space : isSpace c = true) : isSugar c = true := by
  rw [eq_of_beq space]
  rfl

theorem loses_closing (mark : Text) : Text.Loses isSpace (mark ++ [' ']) mark := by
  have lost := (Text.Loses.refl mark).append (.drop (show isSpace ' ' = true from rfl) .nil)
  rwa [List.append_nil] at lost

theorem loses_opening (mark : Text) : Text.Loses isSpace (' ' :: mark) mark :=
  .drop rfl (.refl mark)

theorem loses_collapse (mark text : Text) : Text.Loses isSpace text (collapse mark text) :=
  (Text.loses_settle (Text.loses_replaceAll (by simp) (loses_closing mark)) text).trans
    (Text.loses_settle (Text.loses_replaceAll (by simp) (loses_opening mark)) _)

theorem dropSigil_cases (sigil : Char) (text : Text) : dropSigil [sigil] text = text ∨
    ∃ rest, text = sigil :: ' ' :: rest ∧ dropSigil [sigil] text = rest.dropWhile isSpace := by
  unfold dropSigil
  split
  · rename_i found
    obtain ⟨rest,rfl⟩ := List.isPrefixOf_iff_prefix.mp found
    exact .inr ⟨rest,rfl,rfl⟩
  · exact .inl rfl

theorem dropSigil_suffix (sigil : Char) (text : Text) : dropSigil [sigil] text <:+ text := by
  rcases dropSigil_cases sigil text with same | ⟨rest,rfl,dropped⟩
  · exact ⟨[],same⟩
  · rw [dropped]
    exact (List.dropWhile_suffix _).trans ((List.suffix_cons _ _).trans (List.suffix_cons _ _))

theorem loses_dropSigil {sigil : Char} (sugar : isSugar sigil = true) (text : Text) :
    Text.Loses isSugar text (dropSigil [sigil] text) := by
  rcases dropSigil_cases sigil text with same | ⟨rest,rfl,dropped⟩
  · rw [same]
    exact .refl text
  · rw [dropped]
    exact .drop sugar (.drop rfl ((Text.loses_dropWhile rest).mono isSugar_of_isSpace))

theorem wrapped {text : Text} (front : ['?','('].isPrefixOf text = true)
    (back : [')'].isSuffixOf text = true) : text = '?' :: '(' :: ((text.drop 2).dropLast ++ [')']) := by
  obtain ⟨tail,rfl⟩ := List.isPrefixOf_iff_prefix.mp front
  obtain ⟨start,joined⟩ := List.isSuffixOf_iff_suffix.mp back
  have last := congrArg List.getLast? joined
  rw [List.getLast?_concat] at last
  rcases List.eq_nil_or_concat tail with rfl | ⟨inner,closing,rfl⟩
  · simp at last
  · rw [List.concat_eq_append,← List.append_assoc,List.getLast?_concat] at last
    cases last
    simp

theorem unwrapFilter_cases (text : Text) : unwrapFilter text = dropSigil ['?'] text ∨
    ∃ inner, dropSigil ['?'] text = '?' :: '(' :: (inner ++ [')']) ∧ unwrapFilter text = inner := by
  unfold unwrapFilter
  dsimp only
  split
  · rename_i found
    simp only [Bool.and_eq_true] at found
    exact .inr ⟨_,wrapped found.1 found.2,rfl⟩
  · exact .inl rfl

theorem loses_unwrapFilter (text : Text) : Text.Loses isSugar text (unwrapFilter text) := by
  have bare : Text.Loses isSugar text (dropSigil ['?'] text) := loses_dropSigil rfl text
  rcases unwrapFilter_cases text with same | ⟨inner,shape,unwrapped⟩
  · rwa [same]
  · rw [unwrapped]
    rw [shape] at bare
    have closing := (Text.Loses.refl inner).append (.drop (show isSugar ')' = true from rfl) .nil)
    rw [List.append_nil] at closing
    exact bare.trans (.drop rfl (.drop rfl closing))

theorem loses_pass (text : Text) : Text.Loses isSugar text (pass text) := by
  have collapsed := ((loses_collapse ['\''] text).trans (loses_collapse [')'] _)).trans
    (loses_collapse ['('] _)
  exact ((collapsed.mono isSugar_of_isSpace).trans (loses_unwrapFilter _)).trans (loses_dropSigil rfl _)

def isMark (c : Char) : Bool := c == '\'' || c == '(' || c == ')'

def Unpadded (text : Text) : Prop :=
  text.IsChain fun before after => ¬(isMark before ∧ after = ' ') ∧ ¬(before = ' ' ∧ isMark after)

theorem collapse_unpadded {mark : Char} {text : Text} (marks : isMark mark = true)
    (unpadded : Unpadded text) : collapse [mark] text = text := by
  have after : ¬[mark] ++ [' '] <:+: text := by
    intro within
    have chain := List.IsChain.infix unpadded within
    exact (List.isChain_cons_cons.mp chain).1.1 ⟨marks,rfl⟩
  have before : ¬[' ',mark] <:+: text := by
    intro within
    have chain := List.IsChain.infix unpadded within
    exact (List.isChain_cons_cons.mp chain).1.2 ⟨rfl,marks⟩
  rw [collapse,Text.settle_fixed (Text.replaceAll_absent after),
    Text.settle_fixed (Text.replaceAll_absent before)]

theorem dropSigil_other {sigil : Char} {text : Text} (other : text.head? ≠ some sigil) :
    dropSigil [sigil] text = text := by
  rcases dropSigil_cases sigil text with same | ⟨rest,rfl,_⟩
  · exact same
  · exact absurd rfl other

theorem unwrapFilter_other {text : Text} (other : text.head? ≠ some '?') :
    unwrapFilter text = text := by
  have bare : dropSigil ['?'] text = text := dropSigil_other other
  rcases unwrapFilter_cases text with same | ⟨inner,shape,_⟩
  · rw [same,bare]
  · rw [bare] at shape
    rw [shape] at other
    exact absurd rfl other

theorem pass_unpadded {text : Text} (unpadded : Unpadded text) (filtered : text.head? ≠ some '?')
    (current : text.head? ≠ some '@') : pass text = text := by
  rw [pass,collapse_unpadded rfl unpadded,collapse_unpadded rfl unpadded,
    collapse_unpadded rfl unpadded,unwrapFilter_other filtered,dropSigil_other current]

theorem clean_stripped (raw : Text) : ∃ text, clean raw = Text.strip text := by
  fun_induction clean raw with
  | case1 raw bare quoted => exact ⟨_,rfl⟩
  | case2 raw bare unquoted next shorter ih => exact ih
  | case3 raw bare unquoted next settled => exact ⟨_,rfl⟩

theorem strip_clean (raw : Text) : Text.strip (clean raw) = clean raw := by
  obtain ⟨text,stripped⟩ := clean_stripped raw
  rw [stripped]
  exact Text.trim_trim Text.isBlank text

theorem clean_head {raw : Text} {c : Char} (first : (clean raw).head? = some c) :
    Text.isBlank c = false := by
  obtain ⟨text,stripped⟩ := clean_stripped raw
  rw [stripped] at first
  exact Text.trim_head first

theorem clean_key {raw : Text} (quoted : isQuotedKey (pass raw) = true) : clean raw = quotedKey (pass raw) := by
  rw [clean]
  exact if_pos quoted

theorem clean_quoted {text : Text} (passed : pass text = text) (quoted : isQuotedKey text = true) :
    clean text = quotedKey text := by
  rw [clean_key (by rw [passed,quoted]),passed]

theorem isQuotedKey_front {text : Text} (quoted : isQuotedKey text = true) :
    ∃ rest, text = '[' :: '\'' :: rest := by
  simp only [isQuotedKey,Bool.and_eq_true] at quoted
  obtain ⟨rest,rfl⟩ := List.isPrefixOf_iff_prefix.mp quoted.2
  exact ⟨rest,rfl⟩

theorem isQuotedKey_inner (inner : Text) : isQuotedKey ('[' :: '\'' :: inner) = true ↔ 3 ≤ inner.length := by
  simp [isQuotedKey]

theorem isQuotedKey_other {text : Text} (other : text.head? ≠ some '[') : isQuotedKey text = false := by
  refine Bool.eq_false_iff.mpr fun quoted => ?_
  obtain ⟨rest,rfl⟩ := isQuotedKey_front quoted
  exact other rfl

def inBrackets (content : Text) : Text := '[' :: (content ++ [']'])

def inMarks (key : Text) : Text := ['[','\''] ++ key ++ ['\'',']']

theorem isQuotedKey_marks {key : Text} (nonempty : key ≠ []) :
    isQuotedKey (['[','\''] ++ key ++ ['\'',']']) = true := by
  have room : 1 ≤ key.length := List.length_pos_iff.mpr nonempty
  simp [isQuotedKey]
  omega

theorem quotedKey_sliced (key : Text) (closing : Char) :
    quotedKey ('[' :: '\'' :: (key ++ [closing,']'])) = Text.strip key := by
  have inner : ('[' :: '\'' :: (key ++ [closing,']'])).drop 2 = key ++ [closing] ++ [']'] := by simp
  rw [quotedKey,inner,List.dropLast_concat,List.dropLast_concat]

theorem quotedKey_marks (key : Text) :
    quotedKey (['[','\''] ++ key ++ ['\'',']']) = Text.strip key := by
  rw [List.append_assoc]
  exact quotedKey_sliced key '\''

theorem unpadded_marks {key : Text} (nonempty : key ≠ []) (stripped : Text.strip key = key)
    (unpadded : Unpadded key) : Unpadded (['[','\''] ++ key ++ ['\'',']']) := by
  have edge : ∀ c, key.head? = some c ∨ key.getLast? = some c → c ≠ ' ' := by
    rintro c outer rfl
    rw [← stripped] at outer
    have free : Text.isBlank ' ' = false := outer.elim Text.trim_head Text.trim_last
    simp [Text.isBlank_space] at free
  have front : Unpadded ['[','\''] := by simp [Unpadded,isMark]
  have back : Unpadded ['\'',']'] := by simp [Unpadded,isMark]
  refine List.isChain_append.mpr ⟨List.isChain_append.mpr ⟨front,unpadded,?_⟩,back,?_⟩
  · intro quote last c first
    cases last
    exact ⟨fun padded => edge c (.inl first) padded.2,fun padded => nomatch padded.1⟩
  · intro c last quote first
    cases first
    rw [List.getLast?_append_of_ne_nil _ nonempty] at last
    exact ⟨fun padded => (nomatch padded.2),fun padded => edge c (.inr last) padded.1⟩

theorem cleanBracketed_quoted {key : Text} (nonempty : key ≠ []) (stripped : Text.strip key = key)
    (unpadded : Unpadded key) : cleanBracketed (['[','\''] ++ key ++ ['\'',']']) = key := by
  have whole := unpadded_marks nonempty stripped unpadded
  have passed := pass_unpadded whole (by simp) (by simp)
  have quoted := isQuotedKey_marks nonempty
  rw [cleanBracketed,collapse_unpadded rfl whole,if_pos quoted,clean_quoted passed quoted,
    quotedKey_marks,stripped]

end PathExpr.Sugar
