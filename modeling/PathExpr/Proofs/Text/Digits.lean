import Mathlib.Algebra.Group.Nat.Defs
import PathExpr.Text.Digits

namespace PathExpr.Text

variable {front rest : Text} {n : Nat}

theorem digits_append (all : ∀ c ∈ front, c.isDigit = true) (stop : ∀ c ∈ rest.head?, c.isDigit = false) :
    digits (front ++ rest) = (front,rest) := by
  have taken : rest.takeWhile Char.isDigit = [] ∧ rest.dropWhile Char.isDigit = rest := by
    cases rest with
    | nil => exact ⟨rfl,rfl⟩
    | cons c rest => simp [stop c rfl]
  rw [digits,List.takeWhile_append_of_pos all,List.dropWhile_append_of_pos all,taken.1,taken.2,
    List.append_nil]

theorem ofNat_digit : ∀ c ∈ ofNat n, c.isDigit = true := by
  intro c member
  exact Nat.isDigit_of_mem_toDigits (by decide) (by decide) member

theorem ofNat_cons (n : Nat) : ∃ c rest, ofNat n = c :: rest ∧ c.isDigit = true := by
  obtain ⟨c,rest,shape⟩ := List.exists_cons_of_ne_nil (Nat.toDigits_ne_nil (n:=n) (b:=10))
  refine ⟨c,rest,shape,?_⟩
  apply ofNat_digit (n:=n)
  rw [ofNat,shape]
  exact List.mem_cons_self

theorem ofNat_head (positive : 0 < n) : (ofNat n).head? ≠ some '0' := by
  induction n using Nat.strongRecOn with
  | ind n ih =>
    by_cases small : n < 10
    · rw [ofNat,Nat.toDigits_of_lt_base small]
      simp
      omega
    · have front := ih (n / 10) (by omega) (by omega)
      have split : ofNat n = ofNat (n / 10) ++ [Nat.digitChar (n % 10)] :=
        Nat.toDigits_of_base_le (by decide) (by omega)
      obtain ⟨c,later,shape,_⟩ := ofNat_cons (n / 10)
      rw [split,shape]
      rw [shape] at front
      exact front

theorem ofNat_whole (n : Nat) : isWhole (ofNat n) = true := by
  cases n with
  | zero => rfl
  | succ n => simp [isWhole,ofNat_head]

theorem isOverlong_ofNat (n : Nat) : isOverlong false (ofNat n) = false ↔ n < 10 ^ longest := by
  have bound : (ofNat n).length ≤ longest ↔ n < 10 ^ longest :=
    Nat.length_toDigits_le_iff (by decide) (by decide)
  rw [← bound]
  simp [isOverlong]

theorem signed_natAbs (value : Int) : signed (decide (value < 0)) value.natAbs = value := by
  by_cases negative : value < 0
  · rw [signed,decide_eq_true negative,if_pos rfl]
    omega
  · rw [signed,decide_eq_false negative,if_neg Bool.false_ne_true]
    omega

theorem sign_digit {c : Char} (plus : Bool) (rest : Text) (digit : c.isDigit = true) :
    sign plus (c :: rest) = (false,c :: rest) := by
  unfold sign
  split
  · rename_i same
    cases same
    cases digit
  · rename_i same
    cases same
    cases digit
  · rfl

theorem sign_ofInt (plus : Bool) (value : Int) (rest : Text) :
    sign plus (ofInt value ++ rest) = (decide (value < 0),ofNat value.natAbs ++ rest) := by
  cases value with
  | ofNat n =>
    obtain ⟨c,later,shape,digit⟩ := ofNat_cons n
    have unsigned := sign_digit plus (later ++ rest) digit
    rw [← List.cons_append,← shape] at unsigned
    exact unsigned
  | negSucc n =>
    rw [decide_eq_true (Int.negSucc_lt_zero n)]
    rfl

end PathExpr.Text
