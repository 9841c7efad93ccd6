import PathExpr.Proofs.Excerpts
import PathExpr.Proofs.TokenizedPath.Session

-- The table read back. Its lines come apart at the line feeds, the narrow columns of a row
-- are told by their widths from behind, and what is left is the fragment with its padding.
namespace PathExpr

namespace Text

variable {c : Char} {text : Text}

theorem not_mem_padRight (width : Nat) (padding : c ≠ ' ') (absent : c ∉ text) : c ∉ padRight width text := by
  rw [padRight,List.mem_append,List.mem_replicate]
  rintro (inside | ⟨_,space⟩)
  · exact absent inside
  · exact padding space

theorem strip_padRight (width : Nat) (text : Text) : strip (padRight width text) = strip text := by
  apply trim_behind
  intro c member
  rw [(List.mem_replicate.mp member).2]
  exact isBlank_space

theorem splitOn_ended (lines : List Text) (unbroken : ∀ line ∈ lines, c ∉ line) :
    (lines.flatMap (· ++ [c])).splitOn c = lines ++ [[]] := by
  have joined : lines.flatMap (· ++ [c]) = [c].intercalate (lines ++ [[]]) := by
    clear unbroken
    induction lines with
    | nil => rfl
    | cons line rest ih =>
      rw [List.flatMap_cons,ih,List.cons_append,List.append_assoc]
      cases rest <;> rfl
  rw [joined]
  apply List.splitOn_intercalate
  · intro line member
    rcases List.mem_append.mp member with inside | last
    · exact unbroken line inside
    · rw [List.mem_singleton.mp last]
      exact List.not_mem_nil
  · simp

end Text

theorem Piece.fragment_stripped (piece : Piece) : Text.strip piece.fragment.text = piece.fragment.text := by
  cases piece with
  | root | descent => decide
  | raw bracketed text =>
    cases bracketed with
    | false => exact Sugar.strip_clean text
    | true =>
      simp only [fragment,Sugar.cleanBracketed]
      split
      · exact Sugar.strip_clean _
      · exact Sugar.strip_clean _

namespace TokenTable

variable {tokenized : TokenizedPath} {token : Token}

-- What tells the columns and lines of a table apart: line feeds end lines and stand nowhere
-- else, and no fragment ends in a blank that might be padding.
structure Legible (tokenized : TokenizedPath) : Prop where
  path : '\n' ∉ tokenized.path
  fragments : ∀ token ∈ tokenized.tokens, '\n' ∉ token.fragment ∧ Text.strip token.fragment = token.fragment
  positions : tokenized.tokens.map Token.position = List.range tokenized.size

theorem ofPieces_legible {path : Text} {pieces : List Piece} (ran : Mode.run .top path = .ok pieces)
    (unbroken : '\n' ∉ path) : Legible (.ofPieces path pieces) where
  path := unbroken
  fragments := by
    intro token member
    obtain ⟨piece,placed,origin⟩ := TokenizedPath.ofPieces_origin member
    have same : token.fragment = piece.fragment.text := congrArg Fragment.text origin
    rw [same]
    refine ⟨fun feed => unbroken ?_,piece.fragment_stripped⟩
    have whole : '\n' ∈ pieces.flatMap Piece.text :=
      List.mem_flatMap.mpr ⟨piece,List.mem_of_getElem? placed,piece.fragment_sublist.subset feed⟩
    exact (Mode.run_loses ran).sublist.subset whole
  positions := by rw [TokenizedPath.ofPieces_positions,TokenizedPath.ofPieces_size]

theorem Legible.shortened (legible : Legible tokenized) (count : Nat) : Legible (tokenized.shortened count) where
  path := legible.path
  fragments token member := legible.fragments token (List.mem_of_mem_take member)
  positions := by
    rw [TokenizedPath.shortened_size,TokenizedPath.shortened,List.map_take,legible.positions,List.take_range]
    congr 1
    omega

theorem session_legible {options : Options} {path : Text} (accepted : tokenize options path = .ok tokenized)
    (unbroken : '\n' ∉ tokenized.path) (commands : List TokenizedPath.Command) :
    Legible (tokenized.session commands).2 := by
  obtain ⟨pieces,ran,rfl⟩ := tokenize_accepted accepted
  rw [(TokenizedPath.session_shortened _ commands).2]
  exact (ofPieces_legible ran unbroken).shortened _

def readFlag (column : Text) : Bool := column == Text.padRight 10 (flag true)

def readRow (position : Nat) (line : Text) : Token :=
  let flags := line.drop (line.length - 30)
  ⟨Text.strip (line.take (line.length - 30)),position,readFlag ((flags.drop 10).take 10),readFlag (flags.drop 20)⟩

def read (table : Text) : TokenizedPath :=
  let lines := table.splitOn '\n'
  ⟨(lines.getD 1 []).drop "PATH: ".toList.length,(lines.drop 4).dropLast.mapIdx readRow⟩

theorem readFlag_columns (root ending array : Bool) :
    let flags := Text.padRight 10 (flag root) ++ Text.padRight 10 (flag ending) ++ Text.padRight 10 (flag array)
    flags.length = 30 ∧ readFlag ((flags.drop 10).take 10) = ending ∧ readFlag (flags.drop 20) = array := by
  cases root <;> cases ending <;> cases array <;> exact ⟨rfl,rfl,rfl⟩

theorem readRow_tokenRow (stripped : Text.strip token.fragment = token.fragment) :
    readRow token.position (tokenRow token) = token := by
  obtain ⟨width,ending,array⟩ := readFlag_columns token.isRoot token.isEnd token.isArrayIndex
  have columns : tokenRow token = Text.padRight 50 token.fragment ++ (Text.padRight 10 (flag token.isRoot) ++
      Text.padRight 10 (flag token.isEnd) ++ Text.padRight 10 (flag token.isArrayIndex)) := by
    simp only [tokenRow,row,List.append_assoc]
  have behind : (tokenRow token).length - 30 = (Text.padRight 50 token.fragment).length := by
    rw [columns,List.length_append,width,Nat.add_sub_cancel]
  rw [readRow,behind,columns,List.take_left,List.drop_left,Text.strip_padRight,stripped,ending,array]

theorem rows_unbroken (legible : Legible tokenized) : ∀ line ∈ rows tokenized, '\n' ∉ line := by
  have flags (value : Bool) : '\n' ∉ Text.padRight 10 (flag value) := by cases value <;> decide
  intro line member
  rcases List.mem_append.mp member with heading | rest
  · have path : '\n' ∉ "PATH: ".toList ++ tokenized.path :=
      fun feed => (List.mem_append.mp feed).elim (by decide) legible.path
    simp only [List.mem_cons,List.not_mem_nil,or_false] at heading
    rcases heading with rfl | rfl | rfl | rfl
    · decide
    · exact path
    · decide
    · decide
  · obtain ⟨token,inside,rfl⟩ := List.mem_map.mp rest
    have fragment := Text.not_mem_padRight 50 (by decide) (legible.fragments token inside).1
    simp only [tokenRow,row,List.mem_append,not_or]
    exact ⟨⟨⟨fragment,flags _⟩,flags _⟩,flags _⟩

theorem splitOn_text (legible : Legible tokenized) : (text tokenized).splitOn '\n' = rows tokenized ++ [[]] :=
  Text.splitOn_ended (rows tokenized) (rows_unbroken legible)

theorem read_rows (legible : Legible tokenized) : (tokenized.tokens.map tokenRow).mapIdx readRow = tokenized.tokens := by
  apply List.ext_getElem
  · simp
  · intro index within inside
    have position := congrArg (·[index]?) legible.positions
    have place : (tokenized.tokens[index]).position = index := by
      simpa [inside,TokenizedPath.size] using position
    have row := readRow_tokenRow (legible.fragments _ (List.getElem_mem inside)).2
    rw [place] at row
    rw [List.getElem_mapIdx,List.getElem_map,row]

theorem read_text (legible : Legible tokenized) : read (text tokenized) = tokenized := by
  rw [read,splitOn_text legible]
  have body : ((rows tokenized ++ [[]]).drop 4).dropLast = tokenized.tokens.map tokenRow := by
    rw [rows,List.append_assoc]
    exact List.dropLast_concat
  have heading : (rows tokenized ++ [[]]).getD 1 [] = "PATH: ".toList ++ tokenized.path := rfl
  rw [body,heading,List.drop_left,read_rows legible]

theorem text_faithful {options others : Options} {path further : Text} {one two : TokenizedPath}
    (first : tokenize options path = .ok one) (second : tokenize others further = .ok two)
    (unbroken : '\n' ∉ one.path) (whole : '\n' ∉ two.path) (commands more : List TokenizedPath.Command) :
    let left := (one.session commands).2
    let right := (two.session more).2
    (text left = text right → left.path = right.path ∧ left.tokens = right.tokens) ∧
      ∃ lines : List Text, lines.length = 4 + left.size ∧ (∀ line ∈ lines, '\n' ∉ line) ∧
        text left = lines.flatMap (· ++ ['\n']) := by
  intro left right
  have legible : Legible left := session_legible first unbroken commands
  constructor
  · intro same
    have read : left = right := by
      rw [← read_text legible,same,read_text (session_legible second whole more)]
    rw [read]
    exact ⟨rfl,rfl⟩
  · refine ⟨rows left,?_,rows_unbroken legible,rfl⟩
    rw [rows,List.length_append,List.length_map]
    rfl

theorem text_faithful_widened :
    let path := "['a key that its column is too narrow for  true     false ']. b .c".toList
    let one : TokenizedPath := ⟨"$.".toList ++ path,
      [⟨['$'],0,false,false⟩,⟨"a key that its column is too narrow for  true     false".toList,1,false,true⟩,
        ⟨['b'],2,false,false⟩,⟨['c'],3,true,false⟩]⟩
    let left := (one.session [.removeLast,.removeLast]).2
    let right := (one.session [.table,.removeLast,.size,.removeLast]).2
    tokenize {} path = .ok one ∧ tokenize {autoRoot:=false} ("$.".toList ++ path) = .ok one ∧
      '\n' ∉ one.path ∧ text left = text right ∧ (left.path = right.path ∧ left.tokens = right.tokens) ∧
      left.size = 2 ∧ ∃ lines : List Text, lines.length = 4 + left.size ∧ (∀ line ∈ lines, '\n' ∉ line) ∧
        text left = lines.flatMap (· ++ ['\n']) := by
  intro path one left right
  have first : tokenize {} path = .ok one := by decide +kernel
  have second : tokenize {autoRoot:=false} ("$.".toList ++ path) = .ok one := by decide +kernel
  have unbroken : '\n' ∉ one.path := by decide
  obtain ⟨same,lines⟩ := text_faithful first second unbroken unbroken [.removeLast,.removeLast]
    [.table,.removeLast,.size,.removeLast]
  have equal : text left = text right := rfl
  exact ⟨first,second,unbroken,equal,same equal,rfl,lines⟩

end TokenTable
end PathExpr
