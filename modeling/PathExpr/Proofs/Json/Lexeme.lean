import PathExpr.Json.Lexeme
import PathExpr.Json.Writer
import PathExpr.Proofs.Text.Digits

namespace PathExpr

-- Integers are written with all their digits, but only so many are read.
def Numeral.legible : Numeral → Bool
  | .integer value => !Text.isOverlong (value < 0) (Text.ofNat value.natAbs)
  | .decimal significand _ => !Text.isOverlong (significand < 0) (Text.ofNat significand.natAbs)
  | _ => true

namespace Json.Lexeme

variable {text rest : Text} {c : Char}

theorem hexDigit_digitChar : ∀ n : Fin 16, hexDigit? (Nat.digitChar n) = some n.val := by decide

theorem hexDigits_control : ∀ n : Fin 32, Text.padZeros 4 (Nat.toDigits 16 n) =
    ['0','0',Nat.digitChar (n / 16),Nat.digitChar (n % 16)] := by decide

theorem codeUnit_control (control : c.toNat < 0x20) (rest : Text) :
    codeUnit? (Text.padZeros 4 (Nat.toDigits 16 c.toNat) ++ rest) = some (c.toNat,rest) := by
  have zero : hexDigit? '0' = some 0 := rfl
  have high := hexDigit_digitChar ⟨c.toNat / 16,by omega⟩
  have low := hexDigit_digitChar ⟨c.toNat % 16,by omega⟩
  rw [hexDigits_control ⟨c.toNat,control⟩]
  simp [codeUnit?,zero,high,low]
  omega

theorem codePoint_control (control : c.toNat < 0x20) (rest : Text) :
    codePoint? (Text.padZeros 4 (Nat.toDigits 16 c.toNat) ++ rest) = some (c,rest) := by
  have high : isHighHalf c.toNat = false := by simp [isHighHalf]; omega
  have low : isLowHalf c.toNat = false := by simp [isLowHalf]; omega
  simp [codePoint?,codeUnit_control control,high,low,Char.ofNat_toNat]

theorem character_escape (c : Char) (rest : Text) : character? (escape c ++ rest) = some (c,rest) := by
  fun_cases escape c with
  | case1 marked =>
    simp only [Bool.or_eq_true,decide_eq_true_eq] at marked
    rcases marked with rfl | rfl <;> rfl
  | case2 => rename_i same; subst same; rfl
  | case3 => rename_i same; subst same; rfl
  | case4 => rename_i same; subst same; rfl
  | case5 => rename_i same; subst same; rfl
  | case6 => rename_i same; subst same; rfl
  | case7 => rename_i control; exact codePoint_control control rest
  | case8 unmarked _ _ _ _ _ printable =>
    simp only [Bool.or_eq_true,decide_eq_true_eq,not_or] at unmarked
    unfold character?
    split
    · rename_i same; cases same
    · rename_i same; cases same; exact absurd rfl unmarked.2
    · rename_i same; cases same; exact absurd rfl unmarked.2
    · rename_i same; cases same; simp [unmarked.2,printable]

theorem escape_inner (c : Char) (rest : Text) : (escape c ++ rest).head? ≠ some '"' := by
  fun_cases escape c <;> simp_all

theorem string_character (inner : text.head? ≠ some '"') (read : character? text = some (c,rest)) :
    string? text = (string? rest).map fun later => (c :: later.1,later.2) := by
  rw [string?,if_neg inner]
  split
  · rename_i missed
    rw [read] at missed
    cases missed
  · rename_i found
    rw [read] at found
    cases found
    rfl

theorem string_escaped (text rest : Text) :
    string? (text.flatMap escape ++ '"' :: rest) = some (text,rest) := by
  induction text with
  | nil => rw [string?]; rfl
  | cons c text ih =>
    rw [List.flatMap_cons,List.append_assoc,string_character (escape_inner _ _) (character_escape _ _),ih]
    rfl

-- What may follow a value inside others: nothing reads on into it.
def Shut (rest : Text) : Prop := ∀ c ∈ rest.head?, c = ',' ∨ c = ']' ∨ c = '\x7d'

theorem Shut.digit (shut : Shut rest) : ∀ c ∈ rest.head?, c.isDigit = false := by
  intro c first
  rcases shut c first with rfl | rfl | rfl <;> decide

theorem Shut.fraction (shut : Shut rest) : fraction? rest = some (none,rest) := by
  unfold fraction?
  split
  · rcases shut '.' rfl with same | same | same <;> cases same
  · rfl

theorem Shut.exponent (shut : Shut rest) : exponent? rest = some (none,rest) := by
  unfold exponent?
  split
  · rcases shut 'e' rfl with same | same | same <;> cases same
  · rcases shut 'E' rfl with same | same | same <;> cases same
  · rfl

theorem power_ofInt (value : Int) (shut : Shut rest) :
    power? (Text.ofInt value ++ rest) = some (value,rest) := by
  obtain ⟨c,later,shape,_⟩ := Text.ofNat_cons value.natAbs
  have present : (Text.ofNat value.natAbs).isEmpty = false := by rw [shape]; rfl
  simp only [power?,Text.sign_ofInt,Text.digits_append Text.ofNat_digit shut.digit,present,Text.valueOf_ofNat,
    Text.signed_natAbs]
  rfl

theorem numeral_ofInt (value : Int) (stop : ∀ c ∈ rest.head?, c.isDigit = false) :
    numeral? (Text.ofInt value ++ rest) =
      if Text.isOverlong (value < 0) (Text.ofNat value.natAbs) then none
      else
        match fraction? rest with
        | none => none
        | some (places,later) => (exponent? later).map fun read =>
          (assemble (value < 0) (Text.ofNat value.natAbs) places read.1,read.2) := by
  obtain ⟨c,later,shape,_⟩ := Text.ofNat_cons value.natAbs
  have present : (Text.ofNat value.natAbs).isEmpty = false := by rw [shape]; rfl
  simp only [numeral?,Text.sign_ofInt,Text.digits_append Text.ofNat_digit stop,Text.ofNat_whole,present]
  rfl

theorem first_digit (rest : Text) (digit : c.isDigit = true) :
    first? (c :: rest) = (numeral? (c :: rest)).map fun read => (.scalar (.number read.1),read.2) := by
  unfold first?
  split
  case h_15 => rfl
  all_goals
    rename_i same
    cases same
    try cases digit

theorem first_minus (rest : Text) (digit : c.isDigit = true) :
    first? ('-' :: c :: rest) =
      (numeral? ('-' :: c :: rest)).map fun read => (.scalar (.number read.1),read.2) := by
  unfold first?
  split
  case h_15 => rfl
  all_goals
    rename_i same
    cases same
    try cases digit

theorem first_ofInt (value : Int) (rest : Text) :
    first? (Text.ofInt value ++ rest) =
      (numeral? (Text.ofInt value ++ rest)).map fun read => (.scalar (.number read.1),read.2) := by
  cases value with
  | ofNat n =>
    obtain ⟨c,later,shape,digit⟩ := Text.ofNat_cons n
    have read := first_digit (later ++ rest) digit
    rw [← List.cons_append,← shape] at read
    exact read
  | negSucc n =>
    obtain ⟨c,later,shape,digit⟩ := Text.ofNat_cons (n + 1)
    have read := first_minus (later ++ rest) digit
    rw [← List.cons_append,← shape] at read
    exact read

theorem numeral_integer (value : Int) (shut : Shut rest) :
    numeral? (Text.ofInt value ++ rest) =
      if (Numeral.integer value).legible then some (.integer value,rest) else none := by
  have assembled : assemble (value < 0) (Text.ofNat value.natAbs) none none = .integer value := by
    rw [assemble,Text.valueOf_ofNat,Text.signed_natAbs]
  rw [numeral_ofInt value shut.digit,shut.fraction,Numeral.legible]
  cases Text.isOverlong (value < 0) (Text.ofNat value.natAbs) with
  | true => rfl
  | false =>
    dsimp only
    rw [shut.exponent,Option.map_some,assembled]
    rfl

theorem numeral_decimal (significand exponent : Int) (shut : Shut rest) :
    numeral? (Text.ofInt significand ++ 'e' :: (Text.ofInt exponent ++ rest)) =
      if (Numeral.decimal significand exponent).legible then some (.decimal significand exponent,rest)
      else none := by
  have assembled : assemble (significand < 0) (Text.ofNat significand.natAbs) none (some exponent) =
      .decimal significand exponent := by
    simp [assemble,Text.valueOf_ofNat,Text.signed_natAbs]
  have power : exponent? ('e' :: (Text.ofInt exponent ++ rest)) = some (some exponent,rest) := by
    rw [exponent?,power_ofInt exponent shut]
    rfl
  have whole : fraction? ('e' :: (Text.ofInt exponent ++ rest)) =
      some (none,'e' :: (Text.ofInt exponent ++ rest)) := rfl
  rw [numeral_ofInt significand (by simp),whole,Numeral.legible]
  cases Text.isOverlong (significand < 0) (Text.ofNat significand.natAbs) with
  | true => rfl
  | false =>
    dsimp only
    rw [power,Option.map_some,assembled]
    rfl

theorem first_numeral (numeral : Numeral) (shut : Shut rest) :
    first? (writeNumeral numeral ++ rest) =
      if numeral.legible then some (.scalar (.number numeral),rest) else none := by
  cases numeral with
  | integer value =>
    have written : writeNumeral (.integer value) = Text.ofInt value := rfl
    rw [written,first_ofInt,numeral_integer value shut]
    cases (Numeral.integer value).legible <;> rfl
  | decimal significand exponent =>
    have written : writeNumeral (.decimal significand exponent) =
        Text.ofInt significand ++ 'e' :: Text.ofInt exponent := rfl
    rw [written,List.append_assoc,List.cons_append,first_ofInt,numeral_decimal significand exponent shut]
    cases (Numeral.decimal significand exponent).legible <;> rfl
  | nan => rfl
  | infinite negative => cases negative <;> rfl

def told (legible : Bool) (front : List Lexeme) (later : Option (List Lexeme)) : Option (List Lexeme) :=
  if legible then later.map (front ++ ·) else none

theorem told_nil (later : Option (List Lexeme)) : told true [] later = later := by
  cases later <;> rfl

theorem told_told (one two : Bool) (front back : List Lexeme) (later : Option (List Lexeme)) :
    told one front (told two back later) = told (one && two) (front ++ back) later := by
  cases one <;> cases two <;> cases later <;> simp [told]

theorem all_sharp (sharp : isBlank c = false) :
    all? (c :: rest) = (first? (c :: rest)).bind fun read => (all? read.2).map (read.1 :: ·) := by
  have front : (c :: rest).dropWhile isBlank = c :: rest := List.dropWhile_cons_of_neg (by simp [sharp])
  cases read : first? (c :: rest) with
  | none =>
    rw [all?,List.length_cons,allWithin,front]
    simp only [read]
    rfl
  | some taken => exact all_first (by rw [front,read])

theorem all_sign {lexeme : Lexeme} (rest : Text) (sharp : isBlank c = false)
    (read : first? (c :: rest) = some (lexeme,rest)) : all? (c :: rest) = told true [lexeme] (all? rest) := by
  rw [all_sharp sharp,read]
  rfl

theorem all_quote (text rest : Text) : all? (quote text ++ rest) = told true [.string text] (all? rest) := by
  have read : first? ('"' :: (text.flatMap escape ++ '"' :: rest)) = some (.string text,rest) := by
    rw [first?,string_escaped]
    rfl
  have written : quote text ++ rest = '"' :: (text.flatMap escape ++ '"' :: rest) := by simp [quote]
  rw [written,all_sharp rfl,read]
  rfl

theorem isBlank_digit (digit : c.isDigit = true) : isBlank c = false := by
  rw [Bool.eq_false_iff]
  intro blank
  simp only [isBlank,Bool.or_eq_true,beq_iff_eq] at blank
  rcases blank with ((rfl | rfl) | rfl) | rfl <;> cases digit

theorem ofInt_sharp (value : Int) : ∃ c later, Text.ofInt value = c :: later ∧ isBlank c = false := by
  cases value with
  | ofNat n =>
    obtain ⟨c,later,shape,digit⟩ := Text.ofNat_cons n
    exact ⟨c,later,shape,isBlank_digit digit⟩
  | negSucc n => exact ⟨'-',Text.ofNat (n + 1),rfl,rfl⟩

theorem numeral_sharp (numeral : Numeral) : ∃ c later, writeNumeral numeral = c :: later ∧ isBlank c = false := by
  cases numeral with
  | integer value => exact ofInt_sharp value
  | decimal significand exponent =>
    obtain ⟨c,later,shape,sharp⟩ := ofInt_sharp significand
    exact ⟨c,later ++ 'e' :: Text.ofInt exponent,congrArg (· ++ 'e' :: Text.ofInt exponent) shape,sharp⟩
  | nan => exact ⟨'N',_,rfl,rfl⟩
  | infinite negative =>
    cases negative with
    | false => exact ⟨'I',_,rfl,rfl⟩
    | true => exact ⟨'-',_,rfl,rfl⟩

theorem all_numeral (numeral : Numeral) (shut : Shut rest) :
    all? (writeNumeral numeral ++ rest) = told numeral.legible [.scalar (.number numeral)] (all? rest) := by
  obtain ⟨c,later,written,sharp⟩ := numeral_sharp numeral
  have read := first_numeral numeral shut
  rw [written,List.cons_append] at read ⊢
  rw [all_sharp sharp,read]
  cases numeral.legible <;> rfl

end Json.Lexeme
end PathExpr
