import PathExpr.Proofs.Cursor.Extraction
import PathExpr.Proofs.Cursor.Round
import PathExpr.Proofs.TokenizedPath
import PathExpr.Token.Validation

namespace PathExpr

namespace Token

theorem ofFields_sound (text : Text) (position : Nat) (isEnd isArrayIndex : Bool) :
    ofFields [(Key.fragment,.string text),(Key.position,.ofNat position),(Key.isEnd,.bool isEnd),
      (Key.isArrayIndex,.bool isArrayIndex)] = .ok ⟨text,position,isEnd,isArrayIndex⟩ := by
  have natural : positionOf (.ofNat position) = .ok position := by
    simp [Json.ofNat,positionOf,notNegative]
  have given (value : Json) : fieldOf positionOf (.error .missing) Key.position
      [(Key.fragment,.string text),(Key.position,value),(Key.isEnd,.bool isEnd),
        (Key.isArrayIndex,.bool isArrayIndex)] =
      (positionOf value).mapError fun complaint => ⟨[.field Key.position],complaint⟩ := rfl
  unfold ofFields
  rw [given,natural]
  rfl

theorem mapM_ok (tokens : List Token) :
    (tokens.map (Except.ok (ε:=List Issue))).mapM id = .ok tokens := by
  induction tokens with
  | nil => rfl
  | cons token later ih =>
    rw [List.map_cons,List.mapM_cons,ih]
    rfl

theorem ofUnchecked_fragments (fragments : List Fragment) :
    ofUnchecked (fragments.map fun fragment => (.string fragment.text,.bool fragment.bracketed)) =
      .ok (ofFragments fragments) := by
  rw [← mapM_ok,ofUnchecked]
  congr 1
  apply List.ext_getElem
  · simp [ofFragments]
  · intro index _ _
    simp [ofFragments,ofFields_sound]

end Token

namespace TokenizedPath

-- What stands behind tokens that were given: the scan has left nothing unread, and
-- what it found makes tokens under the checks of unknown values too.
structure Finished (path : Text) (tokenized : TokenizedPath) : Prop where
  used : tokenized.path = path
  consumed : (Cursor.start path).split.2.index = path.length
  found : (Cursor.start path).split.1 = .ok tokenized.origins
  sound : Token.ofUnchecked (tokenized.origins.map fun fragment =>
    (.string fragment.text,.bool fragment.bracketed)) = .ok tokenized.tokens

theorem ofPieces_finished {path : Text} {pieces : List Piece} (ran : Mode.run .top path = .ok pieces) :
    Finished path (ofPieces path pieces) := by
  have taken : Scan.split (Cursor.start path).rest = .ok (pieces.map Piece.fragment,[]) := by
    rw [Mode.split_run,Mode.outcome]
    simp only [Cursor.start,ran]
    rfl
  refine ⟨rfl,?_,?_,?_⟩
  · rw [Cursor.split,Cursor.run_ok _ taken]
    simp [Cursor.index,Cursor.moveTo,Cursor.start]
  · rw [ofPieces_origins]
    exact Cursor.split_ran ran
  · rw [Token.ofUnchecked_fragments,ofPieces_origins]
    rfl

end TokenizedPath

theorem Options.lengthFailure_limited {options : Options} (path : Text)
    (limited : ∀ limit ∈ options.maxLength, 0 < limit) : options.lengthFailure? path = none ∨
      ∃ limit, options.lengthFailure? path = some (.unusable path (.tooLong limit)) := by
  unfold lengthFailure?
  cases given : options.maxLength with
  | none => exact .inl rfl
  | some limit =>
    have positive : ¬limit ≤ 0 := Int.not_le.mpr (limited limit given)
    simp only [if_neg positive]
    split
    · exact .inr ⟨_,rfl⟩
    · exact .inl rfl

theorem tokenize_outcome {options : Options} (path : Text)
    (limited : ∀ limit ∈ options.maxLength, 0 < limit) :
    (∃ pieces, Mode.run .top (options.used path) = .ok pieces ∧
      tokenize options path = .ok (.ofPieces (options.used path) pieces)) ∨
    ∃ used fault, tokenize options path = .error (.unusable used fault) := by
  simp only [tokenize,TokenizedPath.traced]
  rcases Options.lengthFailure_limited path limited with fits | ⟨limit,long⟩
  · rw [fits]
    cases called : options.callFault? path with
    | some fault => exact .inr ⟨path,fault,rfl⟩
    | none =>
      simp only [TokenizedPath.scanned_outcome]
      cases ran : Mode.run .top (options.used path) with
      | ok pieces => exact .inl ⟨pieces,rfl,rfl⟩
      | error halt =>
        right
        rcases Mode.run_halts ran with rfl | rfl | ⟨rest,rfl⟩ <;> exact ⟨_,_,rfl⟩
  · rw [long]
    exact .inr ⟨path,.tooLong limit,rfl⟩

-- How a tokenization ends. No loop of it goes on for ever, and all but the last round
-- of the scan leave the cursor further on. A failure of the cursor or of a token is not
-- among the ways out.
structure Ending (options : Options) (path : Text) : Prop where
  replacing : ∀ mark text, ∃ closed, Ends (Text.replaceRound (mark ++ [' ']) mark) text closed ∧
    Ends (Text.replaceRound (' ' :: mark) mark) closed (Sugar.collapse mark text)
  cleaning : ∀ raw, Ends Sugar.round raw (Sugar.clean raw)
  grouping : ∀ (cursor : Cursor) (opening rest), cursor.rest = opening :: rest → ∃ after,
    cursor.consume = (.ok opening,after) ∧ Ends Cursor.groupRound ([opening],after) cursor.group
  copying : ∀ (boundary) (cursor : Cursor),
    Ends (Cursor.extractRound boundary) ([],false,cursor) (cursor.extract boundary)
  scanning : Ends Cursor.round ([],Cursor.start (options.used path)) (Cursor.start (options.used path)).split
  onward : ∀ fragments cursor later after, Cursor.round (fragments,cursor) = .onward (later,after) →
    after.text = cursor.text ∧ cursor.index < after.index
  outcome : (∃ tokenized, tokenize options path = .ok tokenized ∧
      TokenizedPath.Finished (options.used path) tokenized) ∨
    ∃ used fault, tokenize options path = .error (.unusable used fault) ∧
      fault.className ∈ ["InvalidPathError".toList,"MalformedPathSyntaxError".toList,
        "IncompletePathError".toList,"UnexpectedCharacterError".toList]

theorem tokenize_ends (options : Options) (path : Text)
    (limited : ∀ limit ∈ options.maxLength, 0 < limit) : Ending options path where
  replacing := Sugar.collapse_ends
  cleaning := Sugar.clean_ends
  grouping _ _ _ := Cursor.group_ends
  copying := Cursor.extract_ends
  scanning := Cursor.split_ends_start (options.used path)
  onward _ _ _ _ := Cursor.round_onward
  outcome := by
    rcases tokenize_outcome path limited with ⟨pieces,ran,accepted⟩ | ⟨used,fault,refused⟩
    · exact .inl ⟨_,accepted,TokenizedPath.ofPieces_finished ran⟩
    · refine .inr ⟨used,fault,refused,?_⟩
      cases fault with
      | tooLong => exact .head _
      | functionCall => exact .tail _ (.head _)
      | missing | unclosedGroup => exact .tail _ (.tail _ (.head _))
      | unexpected => exact .tail _ (.tail _ (.tail _ (.head _)))

theorem tokenize_ends_limited :
    (∀ limit ∈ ({maxLength:=some 12} : Options).maxLength, 0 < limit) ∧
      Ending {maxLength:=some 12} "a['b' ]..c".toList ∧ Ending {maxLength:=some 12} "$.a[?(b".toList ∧
      Ending {maxLength:=some 12} "$.store.book[0].title".toList := by
  have limited : ∀ limit ∈ ({maxLength:=some 12} : Options).maxLength, 0 < limit := by
    intro limit given
    cases given
    decide
  exact ⟨limited,tokenize_ends _ _ limited,tokenize_ends _ _ limited,tokenize_ends _ _ limited⟩

end PathExpr
