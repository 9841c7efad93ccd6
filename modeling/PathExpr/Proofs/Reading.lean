import Mathlib.Data.List.TakeWhile
import PathExpr.Reading

-- What a reader gives is decided by the characters it takes. Cut off behind them, or with
-- something else in the place of the rest, the text is read in the same way.
namespace PathExpr.Reading

variable {text copied rest after inner : Text} {isStop : Char → Bool} {escaped : Bool} {c : Char}

theorem group_closes (opening : Char) (unclosed : ')' ∉ inner) (rest : Text) :
    group (opening :: (inner ++ ')' :: rest)) = .ok (opening :: (inner ++ [')']),rest) := by
  have within : ∀ c ∈ inner, (c != ')') = true := by
    intro c member
    simpa using fun same : c = ')' => unclosed (same ▸ member)
  simp [group,List.dropWhile_append_of_pos within,List.takeWhile_append_of_pos within]

theorem group_parts (taken : group text = .ok (copied,rest)) : ∃ opening inner,
    ')' ∉ inner ∧ copied = opening :: (inner ++ [')']) ∧ text = opening :: (inner ++ ')' :: rest) := by
  unfold group at taken
  split at taken
  · cases taken
  · rename_i opening text
    split at taken
    · cases taken
    · rename_i closing after found
      cases taken
      have closes : closing = ')' := by
        have free := List.head?_dropWhile_not (· != ')') text
        rw [found] at free
        simpa using free
      subst closes
      refine ⟨opening,text.takeWhile (· != ')'),?_,rfl,?_⟩
      · intro within
        have inner := List.mem_takeWhile_imp within
        simp at inner
      · rw [← found,List.takeWhile_append_dropWhile]

theorem content_stop (stops : (!escaped && isStop c) = true) (rest : Text) :
    content isStop escaped (c :: rest) = .ok ([],c :: rest) := by
  rw [content,if_pos stops]

theorem content_group (free : ¬(!escaped && isStop c) = true) (opens : (!escaped && decide (c = '(')) = true)
    (taken : group (c :: rest) = .ok (copied,after)) :
    content isStop escaped (c :: rest) = prepend copied (content isStop false after) := by
  rw [content,if_neg free,if_pos opens]
  split
  · rename_i halted; cases halted.symm.trans taken
  · rename_i found; cases found.symm.trans taken; rfl

theorem content_slash (free : ¬(!escaped && isStop '\\') = true) (rest : Text) :
    content isStop escaped ('\\' :: rest) = content isStop (!escaped) rest := by
  rw [content,if_neg free,if_neg (by simp),if_pos rfl]

theorem content_kept (free : ¬(!escaped && isStop c) = true)
    (closed : ¬(!escaped && decide (c = '(')) = true) (kept : c ≠ '\\') (rest : Text) :
    content isStop escaped (c :: rest) = prepend [c] (content isStop false rest) := by
  rw [content,if_neg free,if_neg closed,if_neg kept]

-- How far the reader of a content has come: what it has copied, and whether what is in
-- front of it now is escaped.
inductive Copies (isStop : Char → Bool) : Bool → Text → Text → Bool → Text → Prop where
  | done {escaped : Bool} {text : Text} : Copies isStop escaped text [] escaped text
  | group {pending : Bool} {rest front after copied place : Text} (free : isStop '(' = false)
      (taken : group ('(' :: rest) = .ok (front,after)) (later : Copies isStop false after copied pending place) :
      Copies isStop false ('(' :: rest) (front ++ copied) pending place
  | slash {escaped pending : Bool} {rest copied place : Text} (free : ¬(!escaped && isStop '\\') = true)
      (later : Copies isStop (!escaped) rest copied pending place) :
      Copies isStop escaped ('\\' :: rest) copied pending place
  | kept {escaped pending : Bool} {c : Char} {rest copied place : Text} (free : ¬(!escaped && isStop c) = true)
      (closed : ¬(!escaped && decide (c = '(')) = true) (other : c ≠ '\\')
      (later : Copies isStop false rest copied pending place) :
      Copies isStop escaped (c :: rest) (c :: copied) pending place

variable {pending : Bool} {place back : Text}

theorem prepend_nil (later : Except Halt (Text × Text)) : prepend [] later = later := by
  cases later <;> rfl

theorem prepend_prepend (first second : Text) (later : Except Halt (Text × Text)) :
    prepend first (prepend second later) = prepend (first ++ second) later := by
  cases later <;> simp [prepend]

theorem Copies.content (copies : Copies isStop escaped text copied pending place) :
    content isStop escaped text = prepend copied (content isStop pending place) := by
  induction copies with
  | done => rw [prepend_nil]
  | group free taken _ ih => rw [content_group (by simp [free]) rfl taken,ih,prepend_prepend]
  | slash free _ ih => rw [content_slash free,ih]
  | kept free closed other _ ih => rw [content_kept free closed other,ih,prepend_prepend,List.singleton_append]

theorem Copies.onto (copies : Copies isStop escaped text copied pending place) :
    ∃ slice, text = slice ++ place ∧ ∀ other, Copies isStop escaped (slice ++ other) copied pending other := by
  induction copies with
  | done => exact ⟨[],rfl,fun _ => .done⟩
  | @group pending rest front after copied place free taken _ ih =>
    obtain ⟨slice,rfl,again⟩ := ih
    obtain ⟨opening,inner,unclosed,rfl,joined⟩ := group_parts taken
    obtain ⟨rfl,rfl⟩ := List.cons.inj joined
    refine ⟨'(' :: (inner ++ ')' :: slice),by simp,fun other => ?_⟩
    have closes := group_closes '(' unclosed (slice ++ other)
    have whole := Copies.group free closes (again other)
    simpa using whole
  | slash free _ ih =>
    obtain ⟨slice,rfl,again⟩ := ih
    exact ⟨'\\' :: slice,rfl,fun other => .slash free (again other)⟩
  | @kept _ _ c _ _ _ free closed other _ ih =>
    obtain ⟨slice,rfl,again⟩ := ih
    exact ⟨c :: slice,rfl,fun later => .kept free closed other (again later)⟩

inductive Outcome (isStop : Char → Bool) (escaped : Bool) (text : Text) : Except Halt (Text × Text) → Prop where
  | finished {copied : Text} {pending : Bool} (copies : Copies isStop escaped text copied pending []) :
      Outcome isStop escaped text (.ok (copied,[]))
  | stopped {copied rest : Text} {pending : Bool} {c : Char} (copies : Copies isStop escaped text copied pending (c :: rest))
      (stops : (!pending && isStop c) = true) : Outcome isStop escaped text (.ok (copied,c :: rest))
  | unclosed {copied rest : Text} (copies : Copies isStop escaped text copied false ('(' :: rest))
      (free : isStop '(' = false) (unclosed : ')' ∉ rest) : Outcome isStop escaped text (.error .unclosedGroup)

theorem Outcome.behind {front : Text} {earlier : Bool} {before : Text} {taken : Except Halt (Text × Text)}
    (wider : ∀ {copied pending place}, Copies isStop escaped text copied pending place →
      Copies isStop earlier before (front ++ copied) pending place)
    (outcome : Outcome isStop escaped text taken) : Outcome isStop earlier before (prepend front taken) := by
  cases outcome with
  | finished copies => exact .finished (wider copies)
  | stopped copies stops => exact .stopped (wider copies) stops
  | unclosed copies free unclosed => exact .unclosed (wider copies) free unclosed

theorem content_outcome (isStop : Char → Bool) (escaped : Bool) (text : Text) :
    Outcome isStop escaped text (content isStop escaped text) := by
  fun_induction content isStop escaped text with
  | case1 => exact .finished .done
  | case2 escaped c rest stops => exact .stopped .done stops
  | case3 escaped c rest free opens halt halted =>
    obtain ⟨rfl,rfl⟩ : escaped = false ∧ c = '(' := by simpa using opens
    rcases group_halts halted with ⟨_,empty⟩ | ⟨rfl,_⟩
    · cases empty
    · refine .unclosed .done (by simpa using free) fun within => ?_
      obtain ⟨inner,later,rfl,outside⟩ := List.eq_append_cons_of_mem within
      rw [group_closes '(' outside] at halted
      cases halted
  | case4 escaped c rest free opens copied after taken ih =>
    obtain ⟨rfl,rfl⟩ : escaped = false ∧ c = '(' := by simpa using opens
    exact ih.behind (.group (by simpa using free) taken)
  | case5 escaped rest free closed ih =>
    rw [← prepend_nil (content isStop (!escaped) rest)]
    exact ih.behind (.slash free)
  | case6 escaped c rest free closed kept ih => exact ih.behind (.kept free closed kept)

theorem content_slice (taken : content isStop escaped text = .ok (copied,rest)) :
    ∃ slice, text = slice ++ rest ∧ ∀ other, other = [] ∨ other.head? = rest.head? →
      content isStop escaped (slice ++ other) = .ok (copied,other) := by
  have outcome := content_outcome isStop escaped text
  rw [taken] at outcome
  cases outcome with
  | finished copies =>
    obtain ⟨slice,joined,again⟩ := copies.onto
    refine ⟨slice,joined,fun other ending => ?_⟩
    obtain rfl : other = [] := ending.elim id List.head?_eq_none_iff.mp
    rw [(again []).content]
    simp [content,prepend]
  | stopped copies stops =>
    obtain ⟨slice,joined,again⟩ := copies.onto
    refine ⟨slice,joined,fun other ending => ?_⟩
    rw [(again other).content]
    rcases ending with rfl | same
    · simp [content,prepend]
    · obtain ⟨later,rfl⟩ := List.head?_eq_some_iff.mp same
      simp [content_stop stops,prepend]

theorem extract_slice {boundary : Boundary} (taken : extract boundary text = .ok (copied,rest)) :
    ∃ slice, text = slice ++ rest ∧ ∀ other, other = [] ∨ other.head? = rest.head? →
      extract boundary (slice ++ other) = .ok (copied,other) := by
  unfold extract at taken
  split at taken
  · cases taken
  · rename_i found
    obtain ⟨slice,rfl,again⟩ := content_slice found
    split at taken
    · cases taken
      refine ⟨slice,rfl,fun other ending => ?_⟩
      rw [extract,again other ending]
    · cases taken
    · rename_i stop after
      cases taken
      refine ⟨slice ++ [stop],by simp,fun other _ => ?_⟩
      rw [List.append_assoc,List.singleton_append,extract,again (stop :: other) (.inr rfl)]

theorem extract_prepend {boundary : Boundary} {front : Text}
    (copied : Reading.content boundary.isStop false text = prepend front (Reading.content boundary.isStop false back)) :
    extract boundary text = prepend front (extract boundary back) := by
  rw [extract,extract,copied]
  cases Reading.content boundary.isStop false back with
  | error halt => rfl
  | ok taken =>
    obtain ⟨more,rest⟩ := taken
    cases boundary with
    | before => rfl
    | through => cases rest <;> simp [prepend]

end PathExpr.Reading
