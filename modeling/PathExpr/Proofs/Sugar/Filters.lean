import PathExpr.Proofs.Sugar.Spacing

namespace PathExpr.Sugar

variable {text inner : Text}

def inFilter (text : Text) : Text := '?' :: '(' :: (text ++ [')'])

def inFilters (n : Nat) (text : Text) : Text :=
  (List.replicate n ['?','(']).flatten ++ text ++ List.replicate n ')'

theorem inFilters_succ (n : Nat) (text : Text) : inFilters (n+1) text = inFilter (inFilters n text) := by
  simp [inFilters,inFilter,List.replicate_succ,List.append_assoc,← List.replicate_succ']

theorem dropSigil_inFilter (inner : Text) : dropSigil ['?'] (inFilter inner) = inFilter inner := rfl

theorem unwrapFilter_inFilter (inner : Text) : unwrapFilter (inFilter inner) = inner := by
  have front : ['?','('].isPrefixOf (inFilter inner) = true :=
    List.isPrefixOf_iff_prefix.mpr ⟨inner ++ [')'],rfl⟩
  have back : [')'].isSuffixOf (inFilter inner) = true :=
    List.isSuffixOf_iff_suffix.mpr ⟨'?' :: '(' :: inner,rfl⟩
  have within : ((inFilter inner).drop 2).dropLast = inner := List.dropLast_concat
  rw [unwrapFilter,dropSigil_inFilter,front,back]
  exact within

theorem strip_inFilter (text : Text) : Text.strip (inFilter text) = inFilter text := by
  apply Text.trim_fixed
  · rintro c ⟨⟩
    rfl
  · have last : (('?' :: '(' :: text) ++ [')']).getLast? = some ')' := List.getLast?_concat
    rw [inFilter,← List.cons_append,← List.cons_append,last]
    rintro c ⟨⟩
    rfl

theorem trim_stripped (stripped : Text.strip text = text) : Text.trim isSpace text = text := by
  apply Text.trim_fixed
  · intro c first
    rw [← stripped] at first
    exact isSpace_clear (Text.trim_head first)
  · intro c last
    rw [← stripped] at last
    exact isSpace_clear (Text.trim_last last)

theorem tighten_inFilter (stripped : Text.strip text = text) :
    tighten (inFilter text) = inFilter (tighten text) := by
  have opened : squeeze isMark isMark false (inFilter text) = '?' :: '(' :: squeeze isMark isMark true (text ++ [')']) := by
    rw [inFilter,squeeze_visible rfl,squeeze_visible rfl]
    rfl
  rw [tighten_squeeze,tighten_squeeze,opened,squeeze_enclosed rfl rfl,trim_stripped stripped]
  rfl

-- The pass that takes the wrapper away looks for the other sigil in what was wrapped,
-- but not for a further wrapper: where there is one, it is left to the next pass.
theorem clean_inFilter (stripped : Text.strip text = text) : clean (inFilter text) = clean text := by
  have passed : pass (inFilter text) = dropSigil ['@'] (tighten text) := by
    rw [pass_tighten,tighten_inFilter stripped,unwrapFilter_inFilter]
  by_cases filtered : (tighten text).head? = some '?'
  · have kept : dropSigil ['@'] (tighten text) = tighten text := dropSigil_other (by simp [filtered])
    have unquoted : isQuotedKey (tighten text) = false := isQuotedKey_other (by simp [filtered])
    rw [kept] at passed
    rw [clean_next (by rw [passed,unquoted]),passed,tighten_strip,stripped,clean_tighten]
  · apply clean_congr
    rw [passed,pass_tighten,unwrapFilter_other filtered]

theorem strip_inFilters (stripped : Text.strip text = text) (n : Nat) :
    Text.strip (inFilters n text) = inFilters n text := by
  cases n with
  | zero => simpa [inFilters] using stripped
  | succ n => rw [inFilters_succ,strip_inFilter]

theorem clean_inFilters (stripped : Text.strip text = text) (n : Nat) : clean (inFilters n text) = clean text := by
  induction n with
  | zero => simp [inFilters]
  | succ n ih => rw [inFilters_succ,clean_inFilter (strip_inFilters stripped n),ih]

theorem cleanBracketed_inFilter (text : Text) :
    cleanBracketed (inBrackets (inFilter text)) = clean (inFilter text) := by
  have unquoted : isQuotedKey (collapse ['\''] (inBrackets (inFilter text))) = false := by
    rw [collapse_squeeze rfl,inBrackets,squeeze_visible rfl,inFilter,List.cons_append,squeeze_visible rfl]
    refine Bool.eq_false_iff.mpr fun quoted => ?_
    obtain ⟨rest,shape⟩ := isQuotedKey_front quoted
    cases shape
  rw [cleanBracketed,unquoted]
  exact congrArg clean List.dropLast_concat

theorem filters_transparent (stripped : Text.strip text = text) (n : Nat) :
    clean (inFilters n text) = clean text ∧
      (0 < n → cleanBracketed (inBrackets (inFilters n text)) = clean text) := by
  refine ⟨clean_inFilters stripped n,?_⟩
  intro positive
  obtain ⟨n,rfl⟩ := Nat.exists_eq_succ_of_ne_zero (Nat.ne_of_gt positive)
  rw [Nat.succ_eq_add_one,inFilters_succ,cleanBracketed_inFilter,← inFilters_succ,clean_inFilters stripped]

theorem filters_transparent_sigils :
    let text := "? @ ['( a)']".toList
    Text.strip text = text ∧ inFilters 2 text = "?(?(? @ ['( a)']))".toList ∧
      clean (inFilters 2 text) = clean text ∧ 0 < 2 ∧
      cleanBracketed (inBrackets (inFilters 2 text)) = clean text ∧ clean text = "(a)".toList := by
  intro text
  have stripped : Text.strip text = text := by decide
  have wrapped := filters_transparent stripped 2
  exact ⟨stripped,by decide,wrapped.1,by decide,wrapped.2 (by decide),by decide +kernel⟩

end PathExpr.Sugar
