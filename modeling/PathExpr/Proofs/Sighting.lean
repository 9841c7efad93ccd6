import PathExpr.Proofs.Mode
import PathExpr.Proofs.Reading

-- What a scan meets is decided by the characters it takes and the first one behind them.
-- Cut off there, or with anything else further on, it meets the same.
namespace PathExpr.Sighting

variable {text body rest : Text} {bracketed : Bool}

theorem padded (text : Text) : text.takeWhile (· == ' ') ++ text.dropWhile (· == ' ') = text :=
  List.takeWhile_append_dropWhile

theorem visible_of_found {c : Char} (found : text.dropWhile (· == ' ') = c :: rest) : c ≠ ' ' := by
  have free := List.head?_dropWhile_not (· == ' ') text
  rw [found] at free
  simpa using free

theorem dropWhile_padded (text : Text) {c : Char} (visible : c ≠ ' ') (rest : Text) :
    (text.takeWhile (· == ' ') ++ c :: rest).dropWhile (· == ' ') = c :: rest := by
  have blanks : ∀ d ∈ text.takeWhile (· == ' '), (d == ' ') = true := fun _ => List.mem_takeWhile_imp
  rw [List.dropWhile_append_of_pos blanks]
  simp [visible]

theorem met_root (found : text.dropWhile (· == ' ') = '$' :: body) : of text = .fragment .root body := by
  rw [of,found]
  rfl

theorem met_descent (found : text.dropWhile (· == ' ') = '.' :: '.' :: body) : of text = descent body := by
  rw [of,found]
  rfl

theorem met_separator (found : text.dropWhile (· == ' ') = '.' :: body) (single : body.head? ≠ some '.') :
    of text = .separator body := by
  cases body with
  | nil => rw [of,found]; rfl
  | cons c rest =>
    have other : c ≠ '.' := by simpa using single
    simp [of,found,other]

theorem descent_single (single : body.head? ≠ some '.') : descent body = .fragment .descent body := by
  cases body with
  | nil => rfl
  | cons c rest =>
    have other : c ≠ '.' := by simpa using single
    simp [descent,Reading.rejectNext,other]

theorem descent_third (third : body.head? = some '.') : (descent body).rest? = none := by
  obtain ⟨rest,rfl⟩ := List.head?_eq_some_iff.mp third
  rfl

inductive Extracts : Text → Bool → Text → Prop where
  | bracketed {text rest : Text} (found : text.dropWhile (· == ' ') = '[' :: rest) : Extracts text true ('[' :: rest)
  | plain {text rest : Text} {c : Char} (found : text.dropWhile (· == ' ') = c :: rest)
      (root : c ≠ '$') (dot : c ≠ '.') (bracket : c ≠ '[') : Extracts text false (c :: rest)

theorem Extracts.met (extracts : Extracts text bracketed body) :
    of text = ofRaw (fun raw => (Piece.raw bracketed raw).fragment) (Reading.extract (Mode.boundary bracketed) body) := by
  cases extracts with
  | bracketed found => rw [of,found]; rfl
  | plain found root dot bracket =>
    rw [of,found]
    split <;> simp_all
    rfl

theorem Extracts.onto (extracts : Extracts text bracketed body) :
    ∃ padding, text = padding ++ body ∧ ∀ other, other.head? = body.head? → Extracts (padding ++ other) bracketed other := by
  refine ⟨text.takeWhile (· == ' '),?_,fun other same => ?_⟩
  · cases extracts with
    | bracketed found | plain found => rw [← found,padded]
  · cases extracts with
    | bracketed found =>
      obtain ⟨later,rfl⟩ := List.head?_eq_some_iff.mp same
      exact .bracketed (dropWhile_padded text (by decide) later)
    | plain found root dot bracket =>
      obtain ⟨later,rfl⟩ := List.head?_eq_some_iff.mp same
      exact .plain (dropWhile_padded text (visible_of_found found) later) root dot bracket

theorem Extracts.starts (extracts : Extracts text bracketed body) :
    ∃ c tail, body = c :: tail ∧ (Mode.boundary bracketed).isStop c = false := by
  cases extracts with
  | bracketed => exact ⟨_,_,rfl,rfl⟩
  | plain _ _ dot bracket => exact ⟨_,_,rfl,by simp [Mode.boundary,Boundary.isStop,Boundary.stops,dot,bracket]⟩

def onto (other : Text) : Sighting → Sighting
  | separator _ => .separator other
  | fragment piece _ => .fragment piece other
  | sighting => sighting

theorem Extracts.of_onto (extracts : Extracts text bracketed body) (ahead : (of text).rest? = some rest) :
    ∃ slice, text = slice ++ rest ∧ ∀ other, other = [] ∨ other.head? = rest.head? →
      of (slice ++ other) = (of text).onto other := by
  obtain ⟨padding,rfl,padded⟩ := extracts.onto
  have met := extracts.met
  rw [met] at ahead
  obtain ⟨raw,taken⟩ := ofRaw_rest ahead
  obtain ⟨c,tail,rfl,free⟩ := extracts.starts
  have shorter := Reading.extract_shorter free taken
  obtain ⟨slice,joined,again⟩ := Reading.extract_slice taken
  refine ⟨padding ++ slice,by rw [joined,List.append_assoc],fun other ending => ?_⟩
  cases slice with
  | nil =>
    rw [joined] at shorter
    exact absurd shorter (Nat.lt_irrefl _)
  | cons d slice =>
    obtain ⟨rfl,_⟩ := List.cons.inj joined
    rw [List.append_assoc,(padded (c :: slice ++ other) rfl).met,again other ending,met,taken]
    rfl

theorem of_onto (ahead : (of text).rest? = some rest) :
    ∃ slice, text = slice ++ rest ∧ ∀ other, other = [] ∨ other.head? = rest.head? →
      of (slice ++ other) = (of text).onto other := by
  cases found : text.dropWhile (· == ' ') with
  | nil => simp [of,found,rest?] at ahead
  | cons c body =>
    have joined := padded text
    have behind := dropWhile_padded text (visible_of_found found)
    rw [found] at joined
    by_cases root : c = '$'
    · subst root
      rw [met_root found] at ahead ⊢
      cases ahead
      refine ⟨text.takeWhile (· == ' ') ++ ['$'],by simp [joined],fun other _ => ?_⟩
      rw [List.append_assoc]
      exact met_root (behind other)
    · by_cases dot : c = '.'
      · subst dot
        by_cases double : body.head? = some '.'
        · obtain ⟨later,rfl⟩ := List.head?_eq_some_iff.mp double
          rw [met_descent found] at ahead ⊢
          have single : later.head? ≠ some '.' := fun third => by rw [descent_third third] at ahead; cases ahead
          rw [descent_single single] at ahead ⊢
          cases ahead
          refine ⟨text.takeWhile (· == ' ') ++ ['.','.'],by simp [joined],fun other ending => ?_⟩
          have alone : other.head? ≠ some '.' := by rcases ending with rfl | same <;> simp_all
          rw [List.append_assoc]
          exact (met_descent (behind ('.' :: other))).trans (descent_single alone)
        · rw [met_separator found double] at ahead ⊢
          cases ahead
          refine ⟨text.takeWhile (· == ' ') ++ ['.'],by simp [joined],fun other ending => ?_⟩
          have alone : other.head? ≠ some '.' := by rcases ending with rfl | same <;> simp_all
          rw [List.append_assoc]
          exact met_separator (behind other) alone
      · by_cases bracket : c = '['
        · subst bracket
          exact (Extracts.bracketed found).of_onto ahead
        · exact (Extracts.plain found root dot bracket).of_onto ahead

end PathExpr.Sighting
