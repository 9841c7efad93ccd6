import PathExpr.Proofs.Mode.Piece
import PathExpr.Proofs.Sugar
import PathExpr.Proofs.TokenizedPath

-- Nothing in a fragment reads as a call if nothing in the path did. What is deleted
-- on the way never brings a parenthesis behind another character than it had.
namespace PathExpr

namespace Admission

-- Every parenthesis has an operator or a filter sigil right in front of it. One at
-- the front of the text needs the leave that is given for it.
def Clear : Prop → Text → Prop
  | _,[] => True
  | leading,c :: rest => (c = '(' → leading) ∧ Clear (opensGroup c = true) rest

variable {leading wider : Prop} {text front rest before after : Text} {c : Char}

theorem callee_cons (c d : Char) (rest : Text) :
    callee? (c :: d :: rest) = none ↔ isCall (c,d) = false ∧ callee? (d :: rest) = none := by
  simp only [callee?,List.tail_cons,List.zip_cons_cons,List.findIdx?_eq_none_iff,List.mem_cons,
    forall_eq_or_imp]

theorem clear_iff : Clear leading text ↔ (text.head? = some '(' → leading) ∧ callee? text = none := by
  induction text generalizing leading with
  | nil => simp [Clear,callee?]
  | cons c rest ih =>
    rw [Clear,ih]
    cases rest with
    | nil => simp [callee?]
    | cons d rest =>
      rw [callee_cons]
      simp [isCall]

theorem Clear.mono (more : leading → wider) (clear : Clear leading text) : Clear wider text := by
  cases text with
  | nil => trivial
  | cons c rest => exact ⟨fun opening => more (clear.1 opening),clear.2⟩

theorem Clear.behind (clear : Clear leading (c :: rest)) (shut : opensGroup c = false) :
    Clear wider rest :=
  clear.2.mono fun opens => by rw [shut] at opens; cases opens

theorem Clear.left (clear : Clear leading (front ++ rest)) : Clear leading front := by
  induction front generalizing leading with
  | nil => trivial
  | cons c front ih => exact ⟨clear.1,ih clear.2⟩

theorem Clear.back (clear : Clear leading (front ++ c :: rest)) (other : c ≠ '(') :
    Clear wider (c :: rest) := by
  induction front generalizing leading with
  | nil => exact ⟨fun opening => absurd opening other,clear.2⟩
  | cons d front ih => exact ih clear.2

theorem Clear.loses {drops : Char → Bool} (clear : Clear leading before)
    (shut : ∀ c, drops c = true → opensGroup c = false) (loses : Text.Loses drops before after) :
    Clear leading after := by
  induction loses generalizing leading with
  | nil => trivial
  | keep _ ih => exact ⟨clear.1,ih clear.2⟩
  | drop dropped _ ih => exact ih (clear.behind (shut _ dropped))

theorem clear_dropLast (clear : Clear leading text) : Clear leading text.dropLast := by
  rcases List.eq_nil_or_concat text with rfl | ⟨front,c,rfl⟩
  · exact clear
  · rw [List.concat_eq_append] at clear ⊢
    rw [List.dropLast_concat]
    exact clear.left

end Admission

open Admission

namespace Mode

variable {leading : Prop} {mode next : Mode} {c : Char} {rest : Text} {pieces : List Piece}

theorem enter_clear (clear : Clear leading (c :: rest)) :
    (∀ piece ∈ (enter c).1, Clear leading piece.text) ∧ Clear leading ((enter c).2.held ++ rest) := by
  fun_cases enter c with
  | case1 => rename_i same; subst same; exact ⟨by simp,clear.behind rfl⟩
  | case2 => rename_i same; subst same; exact ⟨by simp [Piece.text,Clear],clear.behind rfl⟩
  | case3 => rename_i same; subst same; exact ⟨by simp,clear.behind rfl⟩
  | case4 => rename_i same; subst same; exact ⟨by simp,clear⟩
  | case5 => rename_i same; subst same; exact ⟨by simp,clear⟩
  | case6 => rename_i same; subst same; exact ⟨by simp,clear.behind rfl⟩
  | case7 => exact ⟨by simp,clear⟩

theorem step_clear (clear : Clear leading (mode.held ++ c :: rest)) (stepped : Step mode c pieces next) :
    (∀ piece ∈ pieces, Clear leading piece.text) ∧ Clear leading (next.held ++ rest) := by
  cases stepped with
  | enter idle =>
    rcases idle with rfl | ⟨rfl | rfl,_⟩ <;> exact enter_clear clear
  | descend => exact ⟨by simp [Piece.text,Clear],clear.behind rfl⟩
  | leave stop =>
    have other : c ≠ '(' := by rcases stop with rfl | rfl <;> decide
    obtain ⟨entered,held⟩ := enter_clear (clear.back other)
    refine ⟨?_,held⟩
    intro piece member
    rcases List.mem_cons.mp member with rfl | member
    · exact clear.left
    · exact entered piece member
  | close =>
    refine ⟨?_,?_⟩
    · intro piece member
      rw [List.mem_singleton.mp member]
      rw [held,List.append_cons] at clear
      exact clear.left
    · have closing : Clear leading (']' :: rest) := clear.back (by decide)
      exact closing.behind rfl
  | slash =>
    refine ⟨by simp,?_⟩
    have lost : Text.Loses (· == '\\') ('\\' :: rest) rest := .drop rfl (.refl rest)
    refine clear.loses ?_ ((Text.Loses.refl _).append lost)
    intro c slash
    rw [eq_of_beq slash]
    rfl
  | copy | openGroup | copyGroup | closeGroup =>
    rw [held,List.append_cons] at clear
    exact ⟨by simp,clear⟩

theorem finish_clear (clear : Clear leading mode.held) (finished : mode.finish = .ok pieces) :
    ∀ piece ∈ pieces, Clear leading piece.text := by
  intro piece member
  obtain ⟨_,_,rfl,rfl⟩ := finish_piece finished member
  exact clear

theorem run_clear (ran : run mode rest = .ok pieces) (clear : Clear leading (mode.held ++ rest)) :
    ∀ piece ∈ pieces, Clear leading piece.text := by
  induction rest generalizing mode pieces with
  | nil =>
    rw [List.append_nil] at clear
    exact finish_clear clear ran
  | cons c rest ih =>
    obtain ⟨first,next,later,stepped,continued,rfl⟩ := run_ok_cons ran
    obtain ⟨here,held⟩ := step_clear clear (step_sound stepped)
    intro piece member
    rcases List.mem_append.mp member with first | later
    · exact here piece first
    · exact ih continued held piece later

end Mode

namespace Sugar

variable {leading : Prop} {text : Text}

theorem isSpace_shut (c : Char) (space : isSpace c = true) : opensGroup c = false := by
  rw [eq_of_beq space]
  rfl

theorem clear_collapse (mark : Text) (clear : Clear leading text) : Clear leading (collapse mark text) :=
  clear.loses isSpace_shut (loses_collapse mark text)

-- The sigil goes together with the blank behind it, which no parenthesis follows.
theorem clear_dropSigil (sigil : Char) (clear : Clear leading text) :
    Clear leading (dropSigil [sigil] text) := by
  rcases dropSigil_cases sigil text with same | ⟨rest,rfl,dropped⟩
  · rwa [same]
  · rw [dropped]
    have behind : Clear leading rest := Clear.behind clear.2 rfl
    exact behind.loses isSpace_shut (Text.loses_dropWhile rest)

theorem clear_unwrapFilter (clear : Clear leading text) : Clear leading (unwrapFilter text) := by
  have bare := clear_dropSigil '?' clear
  rcases unwrapFilter_cases text with same | ⟨inner,shape,unwrapped⟩
  · rwa [same]
  · rw [shape] at bare
    rw [unwrapped]
    exact (Clear.behind bare.2 rfl).left

theorem clear_pass (clear : Clear leading text) : Clear leading (pass text) :=
  clear_dropSigil '@' (clear_unwrapFilter (clear_collapse _ (clear_collapse _ (clear_collapse _ clear))))

theorem clear_strip (clear : Clear leading text) : Clear leading (Text.strip text) := by
  refine clear.loses (fun c blank => ?_) (Text.loses_trim text)
  by_contra opens
  simp only [opensGroup,Bool.not_eq_false,List.contains_cons,List.contains_nil,Bool.or_false,
    Bool.or_eq_true,beq_iff_eq] at opens
  rcases opens with rfl | rfl | rfl | rfl | rfl | rfl | rfl <;> revert blank <;> decide

theorem clear_quotedKey (quoted : isQuotedKey text = true) (clear : Clear leading text) :
    Clear leading (quotedKey text) := by
  simp only [isQuotedKey,Bool.and_eq_true] at quoted
  obtain ⟨rest,rfl⟩ := List.isPrefixOf_iff_prefix.mp quoted.2
  have key : Clear leading rest := Clear.behind clear.2 rfl
  exact clear_strip (clear_dropLast (clear_dropLast key))

theorem clear_clean (clear : Clear leading text) : Clear leading (clean text) := by
  fun_induction clean text with
  | case1 raw bare quoted => exact clear_quotedKey quoted (clear_pass clear)
  | case2 raw bare unquoted next shorter ih => exact ih (clear_strip (clear_pass clear))
  | case3 raw bare unquoted next settled => exact clear_strip (clear_pass clear)

end Sugar

theorem Piece.clear_fragment {leading : Prop} {piece : Piece} (enclosed : piece.Enclosed)
    (clear : Clear leading piece.text) : Clear leading piece.fragment.text := by
  cases piece with
  | root | descent => exact clear
  | raw bracketed text =>
    cases bracketed with
    | false => exact Sugar.clear_clean clear
    | true =>
      obtain ⟨inner,rfl⟩ := enclosed
      simp only [fragment,Sugar.cleanBracketed]
      split
      · exact Sugar.clear_clean clear
      · exact Sugar.clear_clean (clear_dropLast (Clear.behind clear rfl))

-- The spliced root puts a dot in front of the path, and a leading parenthesis behind
-- it. What the run over the path makes of it starts from the dot on.
theorem Mode.used_clear {leading : Prop} {options : Options} {path : Text} {pieces : List Piece}
    (clear : Clear leading path) (ran : run .top (options.used path) = .ok pieces) :
    ∀ piece ∈ pieces, Clear leading piece.text := by
  simp only [Options.used,Admission.rooted] at ran
  split at ran
  · split at ran
    · exact run_clear ran clear
    · rw [run_root,run_separator] at ran
      obtain ⟨others,later,rfl⟩ := behind_accepted ran
      intro piece member
      rcases List.mem_cons.mp member with rfl | member
      · simp [Piece.text,Clear]
      · exact run_clear later clear piece member
  · exact run_clear ran clear

theorem tokenize_uncalled {options : Options} {path : Text} {tokenized : TokenizedPath}
    (checked : options.checkCalls = true) (accepted : tokenize options path = .ok tokenized) :
    ∀ fragment ∈ tokenized.fragments, findCall? fragment = none ∧
      (fragment.head? = some '(' → path.head? = some '(') := by
  have free : callee? path = none := by
    have admitted := tokenize_admitted accepted
    rw [Options.callFault?,if_pos checked,callFault?,Option.map_eq_none_iff] at admitted
    exact admitted
  have clear : Clear (path.head? = some '(') path := clear_iff.mpr ⟨id,free⟩
  obtain ⟨pieces,ran,rfl⟩ := tokenize_accepted accepted
  have enclosed := Mode.run_enclosed (show Mode.Opened .top from trivial) ran
  intro fragment member
  rw [TokenizedPath.ofPieces_fragments] at member
  obtain ⟨piece,within,rfl⟩ := List.mem_map.mp member
  have cleaned := Piece.clear_fragment (enclosed piece within) (Mode.used_clear clear ran piece within)
  obtain ⟨opening,uncalled⟩ := clear_iff.mp cleaned
  exact ⟨by rw [findCall?,uncalled]; rfl,opening⟩

theorem tokenize_uncalled_groups :
    let tokenized : TokenizedPath := ⟨"$.(a)[? ?( ?(b) )].c=(d)".toList,
      [⟨['$'],0,false,false⟩,⟨"(a)".toList,1,false,false⟩,⟨['b'],2,false,true⟩,⟨"c=(d)".toList,3,true,false⟩]⟩
    tokenize {} "(a)[? ?( ?(b) )].c=(d)".toList = .ok tokenized ∧
      ∀ fragment ∈ tokenized.fragments, findCall? fragment = none ∧
        (fragment.head? = some '(' → "(a)[? ?( ?(b) )].c=(d)".toList.head? = some '(') := by
  intro tokenized
  have accepted : tokenize {} "(a)[? ?( ?(b) )].c=(d)".toList = .ok tokenized := by decide +kernel
  exact ⟨accepted,tokenize_uncalled rfl accepted⟩

end PathExpr
