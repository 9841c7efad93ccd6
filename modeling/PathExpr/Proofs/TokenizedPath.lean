import PathExpr.Proofs.Mode
import PathExpr.TokenizedPath

-- A tokenization told by the machine: after the checks of the path as given, all
-- that decides it is the run over the path in use.
namespace PathExpr

def Token.origin (token : Token) : Fragment := ⟨token.fragment,token.isArrayIndex⟩

theorem Token.ofFragments_origin (fragments : List Fragment) :
    (Token.ofFragments fragments).map Token.origin = fragments := by
  apply List.ext_getElem
  · simp [Token.ofFragments]
  · intro index _ _
    simp [Token.ofFragments,Token.origin]

theorem Token.ofFragments_texts (fragments : List Fragment) :
    (Token.ofFragments fragments).map Token.fragment = fragments.map Fragment.text := by
  apply List.ext_getElem
  · simp [Token.ofFragments]
  · intro index _ _
    simp [Token.ofFragments]

theorem Token.ofFragments_at (fragments : List Fragment) (index : Nat) :
    (Token.ofFragments fragments)[index]? = fragments[index]?.map fun fragment =>
      ⟨fragment.text,index,index + 1 == fragments.length,fragment.bracketed⟩ :=
  List.getElem?_mapIdx

theorem Token.ofFragments_cons (first : Fragment) (rest : List Fragment) :
    Token.ofFragments (first :: rest) = ⟨first.text,0,rest.isEmpty,first.bracketed⟩ ::
      rest.mapIdx fun index fragment =>
        ⟨fragment.text,index + 1,index + 1 == rest.length,fragment.bracketed⟩ := by
  cases rest <;> simp [Token.ofFragments,List.mapIdx_cons]

namespace TokenizedPath

def origins (tokenized : TokenizedPath) : List Fragment := tokenized.tokens.map Token.origin

def ofPieces (path : Text) (pieces : List Piece) : TokenizedPath :=
  ⟨path,Token.ofFragments (pieces.map Piece.fragment)⟩

theorem ofPieces_origins (path : Text) (pieces : List Piece) :
    (ofPieces path pieces).origins = pieces.map Piece.fragment :=
  Token.ofFragments_origin _

theorem ofPieces_fragments (path : Text) (pieces : List Piece) :
    (ofPieces path pieces).fragments = pieces.map fun piece => piece.fragment.text := by
  rw [fragments,ofPieces,Token.ofFragments_texts,List.map_map]
  rfl

theorem ofPieces_size (path : Text) (pieces : List Piece) : (ofPieces path pieces).size = pieces.length := by
  simp [ofPieces,size,Token.ofFragments]

theorem ofPieces_positions (path : Text) (pieces : List Piece) :
    (ofPieces path pieces).tokens.map Token.position = List.range pieces.length := by
  apply List.ext_getElem
  · simp [ofPieces,Token.ofFragments]
  · intro index _ _
    simp [ofPieces,Token.ofFragments]

theorem ofPieces_origin {path : Text} {pieces : List Piece} {token : Token}
    (member : token ∈ (ofPieces path pieces).tokens) :
    ∃ piece, pieces[token.position]? = some piece ∧ token.origin = piece.fragment := by
  obtain ⟨index,within,rfl⟩ := List.mem_mapIdx.mp member
  rw [List.length_map] at within
  exact ⟨pieces[index],List.getElem?_eq_getElem within,by simp [Token.origin]⟩

theorem stopped_outcome (events : List Event) (failure : Failure) :
    (stopped events failure).outcome = .error failure := by
  cases failure <;> rfl

theorem scanned_outcome (path : Text) :
    (scanned path).outcome =
      ((Mode.run .top path).map (ofPieces path)).mapError (Halt.failure path) := by
  have split := Mode.split_run path
  rw [Scan.split,Mode.outcome] at split
  cases ran : Mode.run .top path with
  | ok pieces =>
    cases halted : (Scan.of path).halt with
    | some halt => simp [ran,halted,Except.map] at split
    | none =>
      have fragments : (Scan.of path).fragments = pieces.map Piece.fragment := by
        simpa [ran,halted,Except.map] using split
      simp only [scanned,halted,fragments]
      rfl
  | error halt =>
    cases halted : (Scan.of path).halt with
    | none => simp [ran,halted,Except.map] at split
    | some found =>
      have same : found = halt := by simpa [ran,halted,Except.map] using split
      simp only [scanned,halted,stopped_outcome,same]
      rfl

end TokenizedPath

theorem tokenize_refused {options : Options} {path : Text} {fault : Fault}
    (unlimited : options.maxLength = none) (called : options.callFault? path = some fault) :
    tokenize options path = .error (.unusable path fault) := by
  simp [tokenize,TokenizedPath.traced,Options.lengthFailure?,unlimited,called,
    TokenizedPath.stopped_outcome]

theorem tokenize_run {options : Options} {path : Text} (unlimited : options.maxLength = none)
    (free : options.callFault? path = none) :
    tokenize options path =
      ((Mode.run .top (options.used path)).map (TokenizedPath.ofPieces (options.used path))).mapError
        (Halt.failure (options.used path)) := by
  simp [tokenize,TokenizedPath.traced,Options.lengthFailure?,unlimited,free,
    TokenizedPath.scanned_outcome]

theorem tokenize_ran {options : Options} {path : Text} {pieces : List Piece}
    (unlimited : options.maxLength = none) (free : options.callFault? path = none)
    (ran : Mode.run .top (options.used path) = .ok pieces) :
    tokenize options path = .ok (.ofPieces (options.used path) pieces) := by
  rw [tokenize_run unlimited free,ran]
  rfl

theorem tokenize_halted {options : Options} {path : Text} {halt : Halt}
    (unlimited : options.maxLength = none) (free : options.callFault? path = none)
    (halted : Mode.run .top (options.used path) = .error halt) :
    tokenize options path = .error (halt.failure (options.used path)) := by
  rw [tokenize_run unlimited free,halted]
  rfl

theorem tokenize_admitted {options : Options} {path : Text} {tokenized : TokenizedPath}
    (accepted : tokenize options path = .ok tokenized) : options.callFault? path = none := by
  simp only [tokenize,TokenizedPath.traced] at accepted
  split at accepted
  · cases accepted
  · split at accepted
    · rw [TokenizedPath.stopped_outcome] at accepted; cases accepted
    · assumption

theorem tokenize_accepted {options : Options} {path : Text} {tokenized : TokenizedPath}
    (accepted : tokenize options path = .ok tokenized) :
    ∃ pieces, Mode.run .top (options.used path) = .ok pieces ∧
      tokenized = TokenizedPath.ofPieces (options.used path) pieces := by
  simp only [tokenize,TokenizedPath.traced] at accepted
  split at accepted
  · cases accepted
  · split at accepted
    · rw [TokenizedPath.stopped_outcome] at accepted; cases accepted
    · rw [TokenizedPath.scanned_outcome] at accepted
      cases ran : Mode.run .top (options.used path) with
      | error halt => rw [ran] at accepted; cases accepted
      | ok pieces => rw [ran] at accepted; cases accepted; exact ⟨pieces,rfl,rfl⟩

end PathExpr
