import PathExpr.Json
import PathExpr.Text.Digits

namespace PathExpr.Json
open Text

inductive Lexeme where
  | openArray
  | closeArray
  | openObject
  | closeObject
  | comma
  | colon
  | string (text : Text)
  | scalar (value : Json)

namespace Lexeme

def isBlank (c : Char) : Bool := c == ' ' || c == '\t' || c == '\n' || c == '\r'

def hexDigit? (c : Char) : Option Nat :=
  if c.isDigit then some (c.toNat - '0'.toNat)
  else if 'a' ≤ c && c ≤ 'f' then some (c.toNat - 'a'.toNat + 10)
  else if 'A' ≤ c && c ≤ 'F' then some (c.toNat - 'A'.toNat + 10)
  else none

def codeUnit? : Text → Option (Nat × Text)
  | a :: b :: c :: d :: rest => do
    let a ← hexDigit? a
    let b ← hexDigit? b
    let c ← hexDigit? c
    let d ← hexDigit? d
    some (((a*16+b)*16+c)*16+d,rest)
  | _ => none

def isHighHalf (unit : Nat) : Bool := 0xD800 ≤ unit && unit < 0xDC00

def isLowHalf (unit : Nat) : Bool := 0xDC00 ≤ unit && unit < 0xE000

-- A code point in one unit, or in two halves that follow each other. A half alone
-- stands for nothing.
def codePoint? (text : Text) : Option (Char × Text) :=
  match codeUnit? text with
  | none => none
  | some (unit,rest) =>
    if isHighHalf unit then
      match rest with
      | '\\' :: 'u' :: rest =>
        match codeUnit? rest with
        | some (low,rest) =>
          if isLowHalf low then
            some (Char.ofNat (0x10000+(unit-0xD800)*0x400+(low-0xDC00)),rest)
          else none
        | none => none
      | _ => none
    else if isLowHalf unit then none
    else some (Char.ofNat unit,rest)

def shortEscape? : Char → Option Char
  | '"' => some '"'
  | '\\' => some '\\'
  | '/' => some '/'
  | 'b' => some '\x08'
  | 'f' => some '\x0c'
  | 'n' => some '\n'
  | 'r' => some '\r'
  | 't' => some '\t'
  | _ => none

def character? : Text → Option (Char × Text)
  | [] => none
  | '\\' :: 'u' :: rest => codePoint? rest
  | '\\' :: mark :: rest => (shortEscape? mark).map fun c => (c,rest)
  | c :: rest => if c.toNat < 0x20 || c = '\\' then none else some (c,rest)

theorem codeUnit_shorter {text rest : Text} {unit : Nat} (read : codeUnit? text = some (unit,rest)) :
    rest.length < text.length := by
  unfold codeUnit? at read
  split at read
  · simp only [bind,Option.bind_eq_some_iff,Option.some.injEq,Prod.mk.injEq] at read
    obtain ⟨_,_,_,_,_,_,_,_,_,rfl⟩ := read
    simp only [List.length_cons]
    omega
  · cases read

theorem codePoint_shorter {text rest : Text} {c : Char} (read : codePoint? text = some (c,rest)) :
    rest.length < text.length := by
  unfold codePoint? at read
  split at read
  · cases read
  · rename_i first
    have bound := codeUnit_shorter first
    split at read
    · split at read
      · split at read
        · rename_i second
          have later := codeUnit_shorter second
          split at read
          · simp only [Option.some.injEq,Prod.mk.injEq] at read
            obtain ⟨_,rfl⟩ := read
            simp only [List.length_cons] at bound
            omega
          · cases read
        · cases read
      · cases read
    · split at read
      · cases read
      · simp only [Option.some.injEq,Prod.mk.injEq] at read
        obtain ⟨_,rfl⟩ := read
        exact bound

theorem character_shorter {text rest : Text} {c : Char} (read : character? text = some (c,rest)) :
    rest.length < text.length := by
  unfold character? at read
  split at read
  · cases read
  · have bound := codePoint_shorter read
    simp only [List.length_cons]
    omega
  · obtain ⟨_,_,same⟩ := Option.map_eq_some_iff.mp read
    cases same
    simp only [List.length_cons]
    omega
  · split at read
    · cases read
    · cases read; exact Nat.lt_succ_self _

def string? (text : Text) : Option (Text × Text) :=
  if text.head? = some '"' then some ([],text.tail)
  else
    match _ : character? text with
    | none => none
    | some (c,rest) => (string? rest).map fun later => (c :: later.1,later.2)
termination_by text.length
decreasing_by exact character_shorter ‹_›

theorem string_shorter {text content rest : Text} (read : string? text = some (content,rest)) :
    rest.length < text.length := by
  fun_induction string? text generalizing content rest with
  | case1 text closing =>
    cases read
    cases text with
    | nil => cases closing
    | cons => exact Nat.lt_succ_self _
  | case2 => cases read
  | case3 _ _ _ _ taken ih =>
    obtain ⟨_,found,same⟩ := Option.map_eq_some_iff.mp read
    cases same
    exact Nat.lt_trans (ih found) (character_shorter taken)

def fraction? : Text → Option (Option Text × Text)
  | '.' :: rest =>
    if (digits rest).1.isEmpty then none else some (some (digits rest).1,(digits rest).2)
  | text => some (none,text)

def power? (text : Text) : Option (Int × Text) :=
  let (negative,rest) := sign true text
  if (digits rest).1.isEmpty then none
  else some (signed negative (valueOf (digits rest).1),(digits rest).2)

def exponent? : Text → Option (Option Int × Text)
  | 'e' :: rest => (power? rest).map fun read => (some read.1,read.2)
  | 'E' :: rest => (power? rest).map fun read => (some read.1,read.2)
  | text => some (none,text)

def assemble (negative : Bool) (whole : Text) : Option Text → Option Int → Numeral
  | none,none => .integer (signed negative (valueOf whole))
  | places,power =>
    let places := places.getD []
    .decimal (signed negative (valueOf (whole ++ places))) (power.getD 0-places.length)

def numeral? (text : Text) : Option (Numeral × Text) :=
  let (negative,rest) := sign false text
  let whole := (digits rest).1
  if whole.isEmpty || !isWhole whole || isOverlong negative whole then none
  else
    match fraction? (digits rest).2 with
    | none => none
    | some (places,rest) =>
      (exponent? rest).map fun read => (assemble negative whole places read.1,read.2)

def word? (word : Text) (value : Json) (text : Text) : Option (Lexeme × Text) :=
  if word.isPrefixOf text then some (.scalar value,text.drop word.length) else none

def first? : Text → Option (Lexeme × Text)
  | [] => none
  | '[' :: rest => some (.openArray,rest)
  | ']' :: rest => some (.closeArray,rest)
  | '\x7b' :: rest => some (.openObject,rest)
  | '\x7d' :: rest => some (.closeObject,rest)
  | ',' :: rest => some (.comma,rest)
  | ':' :: rest => some (.colon,rest)
  | '"' :: rest => (string? rest).map fun read => (.string read.1,read.2)
  | 'n' :: rest => word? ['u','l','l'] .null rest
  | 't' :: rest => word? ['r','u','e'] (.bool true) rest
  | 'f' :: rest => word? ['a','l','s','e'] (.bool false) rest
  | 'N' :: rest => word? ['a','N'] (.number .nan) rest
  | 'I' :: rest => word? ['n','f','i','n','i','t','y'] (.number (.infinite false)) rest
  | '-' :: 'I' :: rest => word? ['n','f','i','n','i','t','y'] (.number (.infinite true)) rest
  | text => (numeral? text).map fun read => (.scalar (.number read.1),read.2)

theorem fraction_le {text rest : Text} {places : Option Text}
    (read : fraction? text = some (places,rest)) : rest.length ≤ text.length := by
  unfold fraction? at read
  split at read
  · split at read
    · cases read
    · cases read; exact Nat.le_succ_of_le (digits_le _)
  · cases read; exact Nat.le_refl _

theorem power_le {text rest : Text} {power : Int} (read : power? text = some (power,rest)) :
    rest.length ≤ text.length := by
  simp only [power?] at read
  split at read
  · cases read
  · cases read; exact Nat.le_trans (digits_le _) (sign_le _ _)

theorem exponent_le {text rest : Text} {power : Option Int}
    (read : exponent? text = some (power,rest)) : rest.length ≤ text.length := by
  unfold exponent? at read
  split at read
  · obtain ⟨_,found,same⟩ := Option.map_eq_some_iff.mp read
    cases same; exact Nat.le_succ_of_le (power_le found)
  · obtain ⟨_,found,same⟩ := Option.map_eq_some_iff.mp read
    cases same; exact Nat.le_succ_of_le (power_le found)
  · cases read; exact Nat.le_refl _

theorem numeral_shorter {text rest : Text} {numeral : Numeral}
    (read : numeral? text = some (numeral,rest)) : rest.length < text.length := by
  simp only [numeral?] at read
  split at read
  · cases read
  · rename_i whole
    have start := sign_le false text
    have front : (digits (sign false text).2).2.length < (sign false text).2.length :=
      digits_shorter (by simp_all)
    split at read
    · cases read
    · rename_i fraction
      have middle := fraction_le fraction
      obtain ⟨_,power,same⟩ := Option.map_eq_some_iff.mp read
      have behind := exponent_le power
      cases same
      omega

theorem word_le {word text rest : Text} {value : Json} {lexeme : Lexeme}
    (read : word? word value text = some (lexeme,rest)) : rest.length ≤ text.length := by
  unfold word? at read
  split at read
  · cases read; exact (List.drop_suffix _ _).length_le
  · cases read

theorem first_shorter {text rest : Text} {lexeme : Lexeme} (read : first? text = some (lexeme,rest)) :
    rest.length < text.length := by
  unfold first? at read
  split at read
  case h_1 => cases read
  case h_8 =>
    obtain ⟨_,found,same⟩ := Option.map_eq_some_iff.mp read
    cases same; exact Nat.lt_succ_of_lt (string_shorter found)
  case h_9 => exact Nat.lt_succ_of_le (word_le read)
  case h_10 => exact Nat.lt_succ_of_le (word_le read)
  case h_11 => exact Nat.lt_succ_of_le (word_le read)
  case h_12 => exact Nat.lt_succ_of_le (word_le read)
  case h_13 => exact Nat.lt_succ_of_le (word_le read)
  case h_14 => exact Nat.lt_succ_of_lt (Nat.lt_succ_of_le (word_le read))
  case h_15 =>
    obtain ⟨_,found,same⟩ := Option.map_eq_some_iff.mp read
    cases same; exact numeral_shorter found
  all_goals cases read; exact Nat.lt_succ_self _

-- All lexemes, and none where any of the text is unreadable. Each of them takes
-- something, so that there are at most as many as characters.
def allWithin (bound : Nat) (text : Text) : Option (List Lexeme) :=
  match text.dropWhile isBlank with
  | [] => some []
  | c :: later =>
    match bound with
    | 0 => none
    | bound + 1 =>
      match first? (c :: later) with
      | none => none
      | some (lexeme,rest) => (allWithin bound rest).map (lexeme :: ·)

def all? (text : Text) : Option (List Lexeme) := allWithin text.length text

theorem allWithin_bound {one two : Nat} {text : Text} (left : text.length ≤ one)
    (right : text.length ≤ two) : allWithin one text = allWithin two text := by
  induction one generalizing two text with
  | zero =>
    cases List.length_eq_zero_iff.mp (Nat.le_zero.mp left)
    cases two <;> rfl
  | succ one ih =>
    have front := (List.dropWhile_suffix isBlank (l:=text)).length_le
    unfold allWithin
    cases blank : text.dropWhile isBlank with
    | nil => rfl
    | cons c later =>
      rw [blank] at front
      cases two with
      | zero => exact absurd (Nat.le_trans front right) (Nat.not_succ_le_zero _)
      | succ two =>
        cases found : first? (c :: later) with
        | none => simp only [found]
        | some read =>
          have shorter := first_shorter found
          have same : allWithin one read.2 = allWithin two read.2 := ih (by omega) (by omega)
          simp only [found,same]

theorem all_blank {text : Text} (blank : text.dropWhile isBlank = []) : all? text = some [] := by
  unfold all? allWithin
  rw [blank]

theorem all_first {text rest : Text} {lexeme : Lexeme}
    (read : first? (text.dropWhile isBlank) = some (lexeme,rest)) :
    all? text = (all? rest).map (lexeme :: ·) := by
  have shorter := first_shorter read
  have front := (List.dropWhile_suffix isBlank (l:=text)).length_le
  cases blank : text.dropWhile isBlank with
  | nil => rw [blank] at read; cases read
  | cons c later =>
    rw [blank] at read
    unfold all?
    cases size : text.length with
    | zero => omega
    | succ bound =>
      have same : allWithin bound rest = allWithin rest.length rest :=
        allWithin_bound (by omega) (Nat.le_refl _)
      rw [allWithin,blank]
      simp only [read,same]

end Lexeme
end PathExpr.Json
