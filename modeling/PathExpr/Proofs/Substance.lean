import Mathlib.Algebra.BigOperators.Group.List.Basic
import PathExpr.Proofs.Mode.Piece
import PathExpr.Proofs.Sugar
import PathExpr.Proofs.TokenizedPath

-- Whether a path loses anything on the way to its tokens. What counts are the
-- characters that are neither blank nor part of the notation.
namespace PathExpr

namespace Text

def isSyntax (c : Char) : Bool := ['$','.','[',']','(',')','\'','?','@','\\'].contains c

def carries (c : Char) : Bool := !isBlank c && !isSyntax c

def substance (text : Text) : Text := text.filter carries

theorem substance_append (front back : Text) :
    substance (front ++ back) = substance front ++ substance back :=
  List.filter_append front back

theorem substance_strip (text : Text) : substance (strip text) = substance text := by
  refine (loses_trim text).filter fun c blank => ?_
  simp [carries,blank]

theorem substance_flatten (texts : List Text) : substance texts.flatten = texts.flatMap substance := by
  rw [substance,List.filter_flatten,List.flatMap]
  rfl

end Text

namespace Sugar

open Text

def quotedKey? (raw : Text) : Option Text :=
  let bare := pass raw
  if isQuotedKey bare then some bare
  else
    let next := strip bare
    if next.length < raw.length then quotedKey? next else none
termination_by raw.length

-- Taking a key out slices two characters off behind it. They are its closing marks
-- only if the key is closed.
def sliced (raw : Text) : Text :=
  match quotedKey? raw with
  | some key => key.drop (key.length - 2)
  | none => []

theorem quotedKey?_clean {raw key : Text} (found : quotedKey? raw = some key) :
    isQuotedKey key = true ∧ clean raw = quotedKey key := by
  fun_induction quotedKey? raw with
  | case1 raw bare quoted =>
    rw [← Option.some.inj found]
    refine ⟨quoted,?_⟩
    rw [clean]
    exact if_pos quoted
  | case2 raw bare unquoted next shorter ih =>
    obtain ⟨quoted,same⟩ := ih found
    refine ⟨quoted,?_⟩
    rw [clean,if_neg unquoted,if_pos shorter]
    exact same
  | case3 raw bare unquoted next settled => cases found

theorem substance_pass (text : Text) : substance (pass text) = substance text := by
  refine (loses_pass text).filter fun c sugar => ?_
  simp only [isSugar,List.contains_cons,List.contains_nil,Bool.or_false,Bool.or_eq_true,beq_iff_eq] at sugar
  rcases sugar with rfl | rfl | rfl | rfl | rfl <;> rfl

theorem substance_quotedKey {text : Text} (quoted : isQuotedKey text = true) :
    substance text = substance (quotedKey text) ++ substance (text.drop (text.length - 2)) := by
  simp only [isQuotedKey,Bool.and_eq_true,decide_eq_true_eq] at quoted
  obtain ⟨room,marks⟩ := quoted
  obtain ⟨rest,rfl⟩ := List.isPrefixOf_iff_prefix.mp marks
  have inner : (['[','\''] ++ rest).drop 2 = rest := rfl
  have key : rest.dropLast.dropLast = rest.take (rest.length - 2) := by
    rw [List.dropLast_eq_take,List.dropLast_eq_take,List.length_take,List.take_take]
    congr 1
    omega
  have behind : (['[','\''] ++ rest).drop ((['[','\''] ++ rest).length - 2) = rest.drop (rest.length - 2) := by
    have shifted : (['[','\''] ++ rest).length - 2 = (rest.length - 2) + 2 := by
      simp only [List.length_append,List.length_cons,List.length_nil] at room ⊢
      omega
    rw [shifted]
    rfl
  rw [quotedKey,inner,key,behind,substance_strip,← substance_append,List.take_append_drop]
  rfl

theorem substance_clean (raw : Text) :
    substance raw = substance (clean raw) ++ substance (sliced raw) := by
  fun_induction clean raw with
  | case1 raw bare quoted =>
    have key : sliced raw = bare.drop (bare.length - 2) := by
      rw [sliced,quotedKey?]
      simp only [bare] at quoted ⊢
      rw [if_pos quoted]
    rw [key,← substance_pass raw]
    exact substance_quotedKey quoted
  | case2 raw bare unquoted next shorter ih =>
    have later : sliced raw = sliced next := by
      rw [sliced,quotedKey?]
      simp only [bare,next] at unquoted shorter ⊢
      rw [if_neg unquoted,if_pos shorter]
      rfl
    rw [later,← ih,substance_strip,substance_pass]
  | case3 raw bare unquoted next settled =>
    have none : sliced raw = [] := by
      rw [sliced,quotedKey?]
      simp only [bare,next] at unquoted settled ⊢
      rw [if_neg unquoted,if_neg settled]
    rw [none,substance_strip,substance_pass]
    exact (List.append_nil _).symm

end Sugar

namespace Piece

def sliced : Piece → Text
  | root | descent => []
  | raw false text => Sugar.sliced text
  | raw true text =>
    if Sugar.isQuotedKey (Sugar.collapse ['\''] text) then Sugar.sliced text
    else Sugar.sliced text.tail.dropLast

theorem substance_fragment {piece : Piece} (enclosed : piece.Enclosed) :
    Text.substance piece.text =
      Text.substance piece.fragment.text ++ Text.substance piece.sliced := by
  cases piece with
  | root => rfl
  | descent => rfl
  | raw bracketed text =>
    cases bracketed with
    | false => exact Sugar.substance_clean text
    | true =>
      simp only [Piece.text,fragment,sliced,Sugar.cleanBracketed]
      split
      · exact Sugar.substance_clean text
      · obtain ⟨inner,rfl⟩ := enclosed
        have bare : Text.substance ('[' :: (inner ++ [']'])) = Text.substance inner := by
          have opening : Text.substance ['['] = [] := rfl
          have closing : Text.substance [']'] = [] := rfl
          rw [← List.singleton_append,Text.substance_append,Text.substance_append,opening,closing]
          simp
        rw [bare,List.tail_cons,List.dropLast_concat]
        exact Sugar.substance_clean inner

end Piece

theorem Mode.substance_run {path : Text} {pieces : List Piece} (ran : run .top path = .ok pieces) :
    Text.substance path = pieces.flatMap fun piece =>
      Text.substance (piece.fragment.text ++ piece.sliced) := by
  have kept : Text.substance (pieces.flatMap Piece.text) = Text.substance path := by
    refine (run_loses ran).filter fun c dropped => ?_
    simp only [isDropped,List.contains_cons,List.contains_nil,Bool.or_false,Bool.or_eq_true,
      beq_iff_eq] at dropped
    rcases dropped with rfl | rfl | rfl <;> rfl
  have start : Opened .top := trivial
  have enclosed := run_enclosed start ran
  rw [← kept,List.flatMap_def,Text.substance_flatten,List.flatMap_map]
  refine List.flatMap_congr fun piece member => ?_
  rw [Piece.substance_fragment (enclosed piece member),Text.substance_append]

theorem flatMap_behind (front back : Piece → Text) (pieces : List Piece) :
    pieces.flatMap (fun piece => front piece ++ back piece) = pieces.flatMap front ↔
      ∀ piece ∈ pieces, back piece = [] := by
  constructor
  · intro same
    have counted : (pieces.flatMap fun piece => front piece ++ back piece).length =
        (pieces.flatMap front).length + (pieces.flatMap back).length := by
      simp only [List.length_flatMap,List.length_append,List.sum_map_add]
    rw [same] at counted
    have none : (pieces.flatMap back).length = 0 := by omega
    exact List.flatMap_eq_nil_iff.mp (List.eq_nil_of_length_eq_zero none)
  · intro empty
    exact List.flatMap_congr fun piece member => by rw [empty piece member,List.append_nil]

theorem tokenize_substance {options : Options} {path : Text} {tokenized : TokenizedPath}
    (accepted : tokenize options path = .ok tokenized) :
    ∃ pieces, Mode.run .top tokenized.path = .ok pieces ∧
      tokenized.fragments = pieces.map (fun piece => piece.fragment.text) ∧
      Text.substance tokenized.path = pieces.flatMap (fun piece =>
        Text.substance (piece.fragment.text ++ piece.sliced)) ∧
      (Text.substance tokenized.path = Text.substance tokenized.fragments.flatten ↔
        ∀ piece ∈ pieces, Text.substance piece.sliced = []) := by
  obtain ⟨pieces,ran,rfl⟩ := tokenize_accepted accepted
  have whole := Mode.substance_run ran
  refine ⟨pieces,ran,TokenizedPath.ofPieces_fragments _ _,whole,?_⟩
  have texts : Text.substance (TokenizedPath.ofPieces (options.used path) pieces).fragments.flatten =
      pieces.flatMap fun piece => Text.substance piece.fragment.text := by
    rw [TokenizedPath.ofPieces_fragments,Text.substance_flatten,List.flatMap_map]
  rw [texts,← flatMap_behind (fun piece => Text.substance piece.fragment.text)
    (fun piece => Text.substance piece.sliced)]
  simp only [← Text.substance_append]
  rw [← whole]
  rfl

theorem tokenize_substance_unclosed :
    let tokenized : TokenizedPath := ⟨"$['abc].d".toList,
      [⟨['$'],0,false,false⟩,⟨['a','b'],1,false,true⟩,⟨['d'],2,true,false⟩]⟩
    tokenize {} "$['abc].d".toList = .ok tokenized ∧
      ∃ pieces, Mode.run .top tokenized.path = .ok pieces ∧
        tokenized.fragments = pieces.map (fun piece => piece.fragment.text) ∧
        Text.substance tokenized.path = pieces.flatMap (fun piece =>
          Text.substance (piece.fragment.text ++ piece.sliced)) ∧
        (Text.substance tokenized.path = Text.substance tokenized.fragments.flatten ↔
          ∀ piece ∈ pieces, Text.substance piece.sliced = []) := by
  intro tokenized
  have accepted : tokenize {} "$['abc].d".toList = .ok tokenized := by decide +kernel
  exact ⟨accepted,tokenize_substance accepted⟩

theorem substance_lost : ¬∀ (options : Options) (path : Text) (tokenized : TokenizedPath),
    tokenize options path = .ok tokenized →
      Text.substance tokenized.path = Text.substance tokenized.fragments.flatten := by
  intro kept
  have same := kept {} "$['abc]".toList
    ⟨"$['abc]".toList,[⟨['$'],0,false,false⟩,⟨['a','b'],1,true,true⟩]⟩ (by decide +kernel)
  revert same
  decide +kernel

end PathExpr
