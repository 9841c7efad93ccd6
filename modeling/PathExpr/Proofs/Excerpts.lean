import PathExpr.Proofs.Mode.Piece
import PathExpr.Proofs.Rounds
import PathExpr.Proofs.TokenizedPath

-- What is left of a text is an excerpt of it: nothing is made up, doubled or moved.
-- Cleaning even leaves it in one piece, apart from blanks.
namespace PathExpr

namespace Sugar

variable {before after : Text}

def spaceless (text : Text) : Text := text.filter fun c => !isSpace c

theorem spaceless_loses (loses : Text.Loses isSpace before after) : spaceless after = spaceless before :=
  loses.filter fun c space => by rw [space]; rfl

theorem spaceless_within (within : after <:+: before) : spaceless after <:+: spaceless before :=
  within.filter _

theorem spaceless_dropSigil (sigil : Char) (text : Text) :
    spaceless (dropSigil [sigil] text) <:+: spaceless text :=
  spaceless_within (dropSigil_suffix sigil text).isInfix

theorem spaceless_unwrapFilter (text : Text) : spaceless (unwrapFilter text) <:+: spaceless text := by
  have bare := spaceless_dropSigil '?' text
  rcases unwrapFilter_cases text with same | ⟨inner,shape,unwrapped⟩
  · rwa [same]
  · rw [unwrapped]
    have within : inner <:+: dropSigil ['?'] text := by
      rw [shape]
      exact ⟨['?','('],[')'],by simp⟩
    exact (spaceless_within within).trans bare

theorem spaceless_pass (text : Text) : spaceless (pass text) <:+: spaceless text := by
  have collapsed := ((loses_collapse ['\''] text).trans (loses_collapse [')'] _)).trans
    (loses_collapse ['('] _)
  rw [← spaceless_loses collapsed]
  exact (spaceless_dropSigil '@' _).trans (spaceless_unwrapFilter _)

theorem strip_within (text : Text) : Text.strip text <:+: text :=
  (Text.trim_front _ text).isInfix.trans (List.dropWhile_suffix _).isInfix

theorem quotedKey_within (text : Text) : quotedKey text <:+: text := by
  have inner : (text.drop 2).dropLast.dropLast <:+: text :=
    ((List.dropLast_prefix _).trans (List.dropLast_prefix _)).isInfix.trans (List.drop_suffix 2 text).isInfix
  exact (strip_within _).trans inner

theorem spaceless_clean (raw : Text) : spaceless (clean raw) <:+: spaceless raw := by
  fun_induction clean raw with
  | case1 raw bare quoted => exact (spaceless_within (quotedKey_within bare)).trans (spaceless_pass raw)
  | case2 raw bare unquoted next shorter ih =>
    exact ih.trans ((spaceless_within (strip_within bare)).trans (spaceless_pass raw))
  | case3 raw bare unquoted next settled =>
    exact (spaceless_within (strip_within bare)).trans (spaceless_pass raw)

theorem clean_sublist (raw : Text) : (clean raw).Sublist raw := by
  fun_induction clean raw with
  | case1 raw bare quoted => exact (quotedKey_within bare).sublist.trans (loses_pass raw).sublist
  | case2 raw bare unquoted next shorter ih => exact ih.trans (strip_pass_sublist raw)
  | case3 raw bare unquoted next settled => exact strip_pass_sublist raw

theorem cleanBracketed_sublist (raw : Text) : (cleanBracketed raw).Sublist raw := by
  unfold cleanBracketed
  split
  · exact clean_sublist raw
  · have inner := (List.dropLast_sublist raw.tail).trans (List.tail_sublist raw)
    exact (clean_sublist _).trans inner

-- Cleaning ends, loops of its rules included. But for blanks it takes from the two ends
-- of a text alone, and where it takes nothing at all the text is what it was.
structure Trimmed (raw cleaned : Text) : Prop where
  collapsing : ∀ mark text, ∃ closed, Ends (Text.replaceRound (mark ++ [' ']) mark) text closed ∧
    Ends (Text.replaceRound (' ' :: mark) mark) closed (collapse mark text)
  ending : Ends round raw cleaned
  within : spaceless cleaned <:+: spaceless raw
  whole : cleaned.length = raw.length → cleaned = raw

theorem clean_trimmed (raw : Text) : Trimmed raw (clean raw) where
  collapsing := collapse_ends
  ending := clean_ends raw
  within := spaceless_clean raw
  whole := (clean_sublist raw).eq_of_length

end Sugar

theorem Piece.fragment_sublist (piece : Piece) : piece.fragment.text.Sublist piece.text := by
  cases piece with
  | root | descent => exact .refl _
  | raw bracketed text =>
    cases bracketed with
    | false => exact Sugar.clean_sublist text
    | true => exact Sugar.cleanBracketed_sublist text

theorem Piece.fragments_sublist (pieces : List Piece) :
    (pieces.map fun piece => piece.fragment.text).flatten.Sublist (pieces.flatMap Piece.text) := by
  induction pieces with
  | nil => exact .slnil
  | cons piece later ih => exact piece.fragment_sublist.append ih

theorem tokenize_excerpts :
    (∀ {options : Options} {path : Text} {tokenized : TokenizedPath},
      tokenize options path = .ok tokenized → tokenized.fragments.flatten.Sublist (options.used path)) ∧
    ∀ raw, Sugar.Trimmed raw (Sugar.clean raw) := by
  refine ⟨?_,Sugar.clean_trimmed⟩
  intro options path tokenized accepted
  obtain ⟨pieces,ran,rfl⟩ := tokenize_accepted accepted
  rw [TokenizedPath.ofPieces_fragments]
  exact (Piece.fragments_sublist pieces).trans (Mode.run_loses ran).sublist

theorem tokenize_excerpts_padded :
    let tokenized : TokenizedPath := ⟨"$. x [?( @ .b )][ 'c' ]..\\.e ".toList,
      [⟨['$'],0,false,false⟩,⟨['x'],1,false,false⟩,⟨".b".toList,2,false,true⟩,⟨['c'],3,false,true⟩,
        ⟨"..".toList,4,false,false⟩,⟨".e".toList,5,true,false⟩]⟩
    tokenize {} " x [?( @ .b )][ 'c' ]..\\.e ".toList = .ok tokenized ∧
      tokenized.fragments.flatten.Sublist (Options.used {} " x [?( @ .b )][ 'c' ]..\\.e ".toList) ∧
      Sugar.clean "? ?( @ ['d\te ' ] )".toList = "d\te".toList ∧
      Sugar.Trimmed "? ?( @ ['d\te ' ] )".toList "d\te".toList := by
  intro tokenized
  have accepted : tokenize {} " x [?( @ .b )][ 'c' ]..\\.e ".toList = .ok tokenized := by decide +kernel
  have cleaned : Sugar.clean "? ?( @ ['d\te ' ] )".toList = "d\te".toList := by decide +kernel
  have trimmed := tokenize_excerpts.2 "? ?( @ ['d\te ' ] )".toList
  rw [cleaned] at trimmed
  exact ⟨accepted,tokenize_excerpts.1 accepted,cleaned,trimmed⟩

end PathExpr
