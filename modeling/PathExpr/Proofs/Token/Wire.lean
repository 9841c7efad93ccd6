import Mathlib.Data.List.Infix
import PathExpr.Proofs.Json.Reader
import PathExpr.Proofs.TokenizedPath
import PathExpr.Token.Validation

-- The wire form of tokens loses nothing: it is read back as what it was written for, as
-- far as its numbers are read at all, and no two lists share one.
namespace PathExpr

theorem Text.ofNat_apart {one two : Nat} {front back : Text} (stops : ∀ c ∈ front.head?, c.isDigit = false)
    (ends : ∀ c ∈ back.head?, c.isDigit = false) (same : ofNat one ++ front = ofNat two ++ back) :
    one = two ∧ front = back := by
  have first := digits_append (ofNat_digit (n:=one)) stops
  have second := digits_append (ofNat_digit (n:=two)) ends
  rw [same,second,Prod.mk.injEq] at first
  have values := congrArg valueOf first.1
  rw [valueOf_ofNat,valueOf_ofNat] at values
  exact ⟨values.symm,first.2.symm⟩

namespace Json

variable {front back : Text}

theorem quote_apart {one two : Text} (same : quote one ++ front = quote two ++ back) :
    one = two ∧ front = back := by
  have first := Lexeme.string_escaped one front
  have second := Lexeme.string_escaped two back
  have contents : one.flatMap escape ++ '"' :: front = two.flatMap escape ++ '"' :: back := by
    simpa [quote] using same
  rw [contents,second,Option.some.injEq,Prod.mk.injEq] at first
  exact ⟨first.1.symm,first.2.symm⟩

theorem bool_apart {one two : Bool} (same : write (.bool one) ++ front = write (.bool two) ++ back) :
    one = two ∧ front = back := by
  cases one <;> cases two <;> simp_all [write]

end Json

namespace Token

open Json

variable {front back : Text}

def between (key : Text) : Text := ',' :: (quote key ++ [':'])

theorem write_append (token : Token) (rest : Text) : token.write ++ rest =
    '\x7b' :: (quote Key.fragment ++ ':' :: (quote token.fragment ++ (between Key.position ++
      (Text.ofNat token.position ++ (between Key.isEnd ++ (Json.write (.bool token.isEnd) ++
        (between Key.isArrayIndex ++ (Json.write (.bool token.isArrayIndex) ++ '\x7d' :: rest)))))))) := by
  have whole : token.write = '\x7b' :: (writeFields [(Key.fragment,.string token.fragment),
      (Key.position,.ofNat token.position),(Key.isEnd,.bool token.isEnd),
      (Key.isArrayIndex,.bool token.isArrayIndex)] ++ ['\x7d']) := rfl
  have fragment : Json.write (.string token.fragment) = quote token.fragment := rfl
  have position : Json.write (.ofNat token.position) = Text.ofNat token.position := rfl
  simp [whole,writeFields_cons,writeFields_single,fragment,position,between]

theorem write_apart {one two : Token} (same : one.write ++ front = two.write ++ back) :
    one = two ∧ front = back := by
  rw [write_append,write_append,List.cons.injEq,List.append_cancel_left_eq,List.cons.injEq] at same
  obtain ⟨fragments,same⟩ := quote_apart same.2.2
  rw [List.append_cancel_left_eq] at same
  obtain ⟨positions,same⟩ := Text.ofNat_apart (by rintro c ⟨⟩; rfl) (by rintro c ⟨⟩; rfl) same
  rw [List.append_cancel_left_eq] at same
  obtain ⟨endings,same⟩ := bool_apart same
  rw [List.append_cancel_left_eq] at same
  obtain ⟨arrays,same⟩ := bool_apart same
  rw [List.cons.injEq] at same
  refine ⟨?_,same.2⟩
  cases one
  cases two
  cases fragments
  cases positions
  cases endings
  cases arrays
  rfl

def behindFirst : List Token → Text
  | [] => [']']
  | next :: others => ',' :: (writeItems ((next :: others).map toJson) ++ [']'])

theorem writeItems_first (token : Token) (later : List Token) :
    writeItems ((token :: later).map toJson) ++ [']'] = token.write ++ behindFirst later := by
  cases later with
  | nil => rfl
  | cons next others => exact List.append_assoc token.write _ _

theorem writeItems_apart {one two : List Token}
    (same : writeItems (one.map toJson) ++ [']'] = writeItems (two.map toJson) ++ [']']) : one = two := by
  induction one generalizing two with
  | nil =>
    cases two with
    | nil => rfl
    | cons token later =>
      rw [writeItems_first] at same
      cases same
  | cons token later ih =>
    cases two with
    | nil =>
      rw [writeItems_first] at same
      cases same
    | cons other others =>
      rw [writeItems_first,writeItems_first] at same
      obtain ⟨first,behind⟩ := write_apart same
      subst first
      cases later with
      | nil =>
        cases others with
        | nil => rfl
        | cons => cases behind
      | cons next rest =>
        cases others with
        | nil => cases behind
        | cons => rw [ih (List.cons.inj behind).2]

theorem writeList_injective : Function.Injective writeList := by
  intro one two same
  have items : writeItems (one.map toJson) ++ [']'] = writeItems (two.map toJson) ++ [']'] :=
    (List.cons.inj same).2
  exact writeItems_apart items

theorem toJson_legible (token : Token) : token.toJson.legible = decide (token.position < 10 ^ Text.longest) := by
  have shape : token.toJson.legible = (true && (!Text.isOverlong false (Text.ofNat token.position) &&
      (true && (true && true)))) := rfl
  rw [shape,Bool.eq_iff_iff]
  simp [Text.isOverlong_ofNat]

theorem toJson_depth (token : Token) : token.toJson.depth = 1 := rfl

theorem items_legible (tokens : List Token) :
    legibleItems (tokens.map toJson) = decide (∀ token ∈ tokens, token.position < 10 ^ Text.longest) := by
  induction tokens with
  | nil => simp [legibleItems]
  | cons token tokens ih => simp [legibleItems,toJson_legible,ih]

theorem items_depth (tokens : List Token) : Json.depth (.array (tokens.map toJson)) ≤ 2 := by
  have each : depthOfItems (tokens.map toJson) ≤ 2 := by
    induction tokens with
    | nil => simp [depthOfItems]
    | cons token tokens ih => simp [depthOfItems,toJson_depth,ih]
  exact each

theorem ofJson_toJson (source : Source) (token : Token) : ofJson source token.toJson = .ok token := by
  have position : notNegative token.position = .ok token.position := by
    simp [notNegative]
  have read : positionOf (.ofNat token.position) = .ok token.position := position
  have fields : ofJson source token.toJson = 
    match (positionOf (.ofNat token.position)).mapError fun complaint => Issue.mk [.field Key.position] complaint with
    | .ok position => .ok ⟨token.fragment,position,token.isEnd,token.isArrayIndex⟩
    | .error issue => .error [issue] := by
      unfold ofJson toJson ofFields
      rfl
  rw [fields,read]
  rfl

theorem gather_ok (tokens : List Token) : gather (tokens.map .ok) = .ok tokens := by
  induction tokens with
  | nil => rfl
  | cons token tokens ih => simp [gather,ih]

theorem listOfJson_toJson (source : Source) (tokens : List Token) :
    listOfJson source (.array (tokens.map toJson)) = .ok tokens := by
  have items : ((tokens.map toJson).mapIdx fun index item =>
      (ofJson source item).mapError (List.map (Issue.within (.item index)))) = tokens.map .ok := by
    apply List.ext_getElem
    · simp
    · intro index _ _
      simp only [List.getElem_mapIdx,List.getElem_map,ofJson_toJson]
      rfl
  rw [listOfJson,items,gather_ok]

theorem read_write (token : Token) : read token.write =
    if token.position < 10 ^ Text.longest then .ok token else .error [⟨[],.unreadable⟩] := by
  have shallow : token.toJson.depth ≤ deepest := by rw [toJson_depth]; decide
  rw [read,Token.write,document_write shallow,toJson_legible]
  by_cases fits : token.position < 10 ^ Text.longest
  · simp only [fits,decide_true,if_true,ofJson_toJson]
  · simp [fits]

theorem readList_writeList (tokens : List Token) : readList (writeList tokens) =
    if ∀ token ∈ tokens, token.position < 10 ^ Text.longest then .ok tokens
    else .error [⟨[],.unreadable⟩] := by
  have shallow := Nat.le_trans (items_depth tokens) (show 2 ≤ deepest by decide)
  have legible : Json.legible (.array (tokens.map toJson)) = _ := items_legible tokens
  rw [readList,writeList,document_write shallow,legible]
  by_cases fits : ∀ token ∈ tokens, token.position < 10 ^ Text.longest
  · simp only [if_pos fits,decide_eq_true fits,if_true,listOfJson_toJson]
  · simp only [if_neg fits,decide_eq_false fits]
    rfl

-- The positions of a tokenized path are counted from zero, so that a list is read back
-- as long as all its tokens can be counted.
theorem ofPieces_readable (path : Text) (pieces : List Piece) (limit : Nat) :
    (∀ token ∈ (TokenizedPath.ofPieces path pieces).tokens, token.position < limit) ↔
      (TokenizedPath.ofPieces path pieces).size ≤ limit := by
  have positions := TokenizedPath.ofPieces_positions path pieces
  have members : (∀ token ∈ (TokenizedPath.ofPieces path pieces).tokens, token.position < limit) ↔
      ∀ position ∈ List.range pieces.length, position < limit := by
    rw [← positions]
    simp
  rw [members,TokenizedPath.ofPieces_size]
  constructor
  · intro below
    apply Nat.le_of_not_lt
    intro more
    exact Nat.lt_irrefl _ (below limit (List.mem_range.mpr more))
  · intro room position member
    exact Nat.lt_of_lt_of_le (List.mem_range.mp member) room

theorem wire_faithful :
    (∀ token : Token, read token.write =
      if token.position < 10 ^ Text.longest then .ok token else .error [⟨[],.unreadable⟩]) ∧
    (∀ tokens : List Token, readList (writeList tokens) =
      if ∀ token ∈ tokens, token.position < 10 ^ Text.longest then .ok tokens
      else .error [⟨[],.unreadable⟩]) ∧
    (∀ {options : Options} {path : Text} {tokenized : TokenizedPath},
      tokenize options path = .ok tokenized →
        (readList (writeList tokenized.tokens) = .ok tokenized.tokens ↔
          tokenized.size ≤ 10 ^ Text.longest)) ∧
    Function.Injective writeList := by
  refine ⟨read_write,readList_writeList,?_,writeList_injective⟩
  intro options path tokenized accepted
  obtain ⟨pieces,_,rfl⟩ := tokenize_accepted accepted
  rw [← ofPieces_readable,readList_writeList]
  split
  · rename_i readable
    exact iff_of_true rfl readable
  · rename_i unreadable
    exact iff_of_false (by simp) unreadable

theorem wire_faithful_controls :
    let path := "a\"\n['\x01/é\t'][0]".toList
    let tokenized : TokenizedPath := ⟨'$' :: '.' :: path,
      [⟨['$'],0,false,false⟩,⟨"a\"".toList,1,false,false⟩,⟨"\x01/é".toList,2,false,true⟩,
        ⟨['0'],3,true,true⟩]⟩
    tokenize {} path = .ok tokenized ∧ tokenized.size ≤ 10 ^ Text.longest ∧
      readList (writeList tokenized.tokens) = .ok tokenized.tokens := by
  intro path tokenized
  have accepted : tokenize {} path = .ok tokenized := by decide +kernel
  have countable : tokenized.size ≤ 10 ^ Text.longest := by
    have small : tokenized.size ≤ 10 ^ 1 := by decide
    exact Nat.le_trans small (Nat.pow_le_pow_right (by decide) (by decide))
  exact ⟨accepted,countable,(wire_faithful.2.2.1 accepted).mpr countable⟩

theorem position_unread :
    ¬∀ tokens : List Token, readList (writeList tokens) = .ok tokens := by
  intro faithful
  have written := faithful [⟨['a'],10 ^ Text.longest,false,false⟩]
  rw [readList_writeList,if_neg (by simp)] at written
  cases written

end Token
end PathExpr
