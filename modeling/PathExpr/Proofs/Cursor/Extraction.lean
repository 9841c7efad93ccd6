import PathExpr.Proofs.Cursor
import PathExpr.Proofs.Reading
import PathExpr.Proofs.Rounds

-- The copying of groups and of fragments as loops on a cursor. Whatever a round looks
-- at or steps over may fail.
namespace PathExpr.Cursor

variable {cursor here after : Cursor} {boundary : Boundary}

def groupRound : Text × Cursor → Turn (Text × Cursor) (Except Failure Text × Cursor)
  | (copied,here) =>
    if here.isEmpty then .ended (.error (.unusable here.text .unclosedGroup),here)
    else match here.consume with
      | (.ok c,after) =>
        if c = ')' then .ended (.ok (copied ++ [c]),after) else .onward (copied ++ [c],after)
      | (.error failure,after) => .ended (.error failure,after)

theorem groupRound_onward {rest : Text} {c : Char} (copied : Text) (unread : here.rest = c :: rest) (inner : c ≠ ')') :
    ∃ next, groupRound (copied,here) = .onward (copied ++ [c],next) ∧
      next.text = here.text ∧ next.rest = rest := by
  obtain ⟨next,consumed,text,behind⟩ := consume_cons unread
  refine ⟨next,?_,text,behind⟩
  rw [groupRound,if_neg (isEmpty_cons unread),consumed]
  exact if_neg inner

theorem groupRound_unclosed {text : Text} (copied : Text) (unread : here.rest = text) (unclosed : ')' ∉ text)
    (same : after.text = here.text) (left : after.rest = []) :
    Ends groupRound (copied,here) (.error (.unusable here.text .unclosedGroup),after) := by
  induction text generalizing copied here with
  | nil =>
    rw [eq_of_rest same (left.trans unread.symm)]
    exact .now (if_pos (isEmpty_nil unread))
  | cons c rest ih =>
    rw [List.mem_cons,not_or] at unclosed
    obtain ⟨next,went,text,behind⟩ := groupRound_onward copied unread (Ne.symm unclosed.1)
    rw [← text] at same ⊢
    exact .later went (ih _ behind unclosed.2 same)

theorem groupRound_closed {inner rest : Text} (copied : Text) (unread : here.rest = inner ++ ')' :: rest)
    (unclosed : ')' ∉ inner) (same : after.text = here.text) (left : after.rest = rest) :
    Ends groupRound (copied,here) (.ok (copied ++ (inner ++ [')'])),after) := by
  induction inner generalizing copied here with
  | nil =>
    obtain ⟨next,consumed,text,behind⟩ := consume_cons unread
    refine .now ?_
    rw [groupRound,if_neg (isEmpty_cons unread),consumed]
    rw [eq_of_rest (same.trans text.symm) (left.trans behind.symm)]
    rfl
  | cons c inner ih =>
    rw [List.mem_cons,not_or] at unclosed
    obtain ⟨next,went,text,behind⟩ := groupRound_onward copied unread (Ne.symm unclosed.1)
    rw [← text] at same
    have later := ih (copied ++ [c]) behind unclosed.2 same
    rw [List.append_assoc] at later
    exact .later went later

theorem group_ends {opening : Char} {rest : Text} (unread : here.rest = opening :: rest) :
    ∃ after, here.consume = (.ok opening,after) ∧ Ends groupRound ([opening],after) here.group := by
  obtain ⟨after,consumed,text,behind⟩ := consume_cons unread
  refine ⟨after,consumed,?_⟩
  cases taken : Reading.group here.rest with
  | error halt =>
    have halted := taken
    obtain rfl : halt = .unclosedGroup := by
      rcases Reading.group_halts taken with ⟨_,none⟩ | ⟨unclosed,_⟩
      · cases unread.symm.trans none
      · exact unclosed
    have unclosed : ')' ∉ rest := by
      intro within
      obtain ⟨inner,later,joined,free⟩ := List.eq_append_cons_of_mem within
      rw [unread,joined,Reading.group_closes opening free] at halted
      cases halted
    rw [show here.group = _ from run_error Reading.group_onward taken,← text]
    exact groupRound_unclosed _ behind unclosed text.symm rfl
  | ok read =>
    obtain ⟨copied,later⟩ := read
    obtain ⟨first,inner,unclosed,rfl,joined⟩ := Reading.group_parts taken
    rw [show here.group = _ from run_ok Reading.group_onward taken]
    obtain ⟨rfl,whole⟩ := List.cons.inj (unread.symm.trans joined)
    exact groupRound_closed _ (behind.trans whole) unclosed text.symm rfl

def leaving (boundary : Boundary) (copied : Text) (here : Cursor) : Except Failure Text × Cursor :=
  match boundary with
  | .before _ => (.ok copied,here)
  | .through expected _ =>
    if here.isEmpty then (.error (.unusable here.text (.missing expected)),here)
    else match here.consume with
      | (.ok c,after) => (.ok (copied ++ [c]),after)
      | (.error failure,after) => (.error failure,after)

abbrev Copying := Turn (Text × Bool × Cursor) (Except Failure Text × Cursor)

def extractRound (boundary : Boundary) : Text × Bool × Cursor → Copying
  | (copied,escaped,here) =>
    if here.isEmpty then .ended (leaving boundary copied here)
    else match here.peek with
      | .ok c =>
        if !escaped && boundary.isStop c then .ended (leaving boundary copied here)
        else if !escaped && c = '(' then
          match here.group with
          | (.ok group,after) => .onward (copied ++ group,false,after)
          | (.error failure,after) => .ended (.error failure,after)
        else match here.consume with
          | (.ok c,after) => if c = '\\' then .onward (copied,!escaped,after)
            else .onward (copied ++ [c],false,after)
          | (.error failure,after) => .ended (.error failure,after)
      | .error failure => .ended (.error failure,here)

def told (boundary : Boundary) (copied : Text) (after : Cursor) :
    Except Halt (Text × Text) → Except Failure Text × Cursor
  | .ok (more,_) => leaving boundary (copied ++ more) after
  | .error halt => (.error (halt.failure after.text),after)

def restOf : Except Halt (Text × Text) → Text
  | .ok (_,rest) => rest
  | .error halt => halt.rest

theorem told_prepend (copied front : Text) (taken : Except Halt (Text × Text)) :
    told boundary copied after (Reading.prepend front taken) = told boundary (copied ++ front) after taken := by
  cases taken with
  | ok read => simp only [Reading.prepend,told,List.append_assoc]
  | error halt => rfl

theorem restOf_prepend (front : Text) (taken : Except Halt (Text × Text)) :
    restOf (Reading.prepend front taken) = restOf taken := by
  cases taken <;> rfl

theorem extractRound_ends {escaped : Bool} {text : Text} (copied : Text) (unread : here.rest = text)
    (same : after.text = here.text)
    (left : after.rest = restOf (Reading.content boundary.isStop escaped text)) :
    Ends (extractRound boundary) (copied,escaped,here)
      (told boundary copied after (Reading.content boundary.isStop escaped text)) := by
  fun_induction Reading.content boundary.isStop escaped text generalizing copied here with
  | case1 escaped =>
    rw [eq_of_rest same (left.trans unread.symm),told,List.append_nil]
    exact .now (if_pos (isEmpty_nil unread))
  | case2 escaped c rest stops =>
    rw [eq_of_rest same (left.trans unread.symm),told,List.append_nil]
    refine .now ?_
    rw [extractRound,if_neg (isEmpty_cons unread),peek_cons unread]
    exact if_pos stops
  | case3 escaped c rest free opens halt halted =>
    have stopped : here.group = (.error (halt.failure here.text),after) :=
      run_error_at _ (by rw [unread]; exact halted) same left
    refine .now ?_
    rw [extractRound,if_neg (isEmpty_cons unread),peek_cons unread]
    simp only [if_neg free,if_pos opens,stopped,told,same]
  | case4 escaped c rest free opens group behind opened ih =>
    rw [restOf_prepend] at left
    rw [told_prepend]
    have taken : Reading.group here.rest = .ok (group,behind) := by rw [unread]; exact opened
    obtain ⟨next,copies,text,moved⟩ := run_taken Reading.group_onward taken
    have copies : here.group = (.ok group,next) := copies
    refine .later ?_ (ih _ moved (same.trans text.symm) left)
    rw [extractRound,if_neg (isEmpty_cons unread),peek_cons unread]
    simp only [if_neg free,if_pos opens,copies]
  | case5 escaped rest free closed ih =>
    obtain ⟨next,consumed,text,behind⟩ := consume_cons unread
    refine .later ?_ (ih _ behind (same.trans text.symm) left)
    rw [extractRound,if_neg (isEmpty_cons unread),peek_cons unread]
    simp only [if_neg free,if_neg closed,consumed,if_true]
  | case6 escaped c rest free closed kept ih =>
    rw [restOf_prepend] at left
    rw [told_prepend]
    obtain ⟨next,consumed,text,behind⟩ := consume_cons unread
    refine .later ?_ (ih _ behind (same.trans text.symm) left)
    rw [extractRound,if_neg (isEmpty_cons unread),peek_cons unread]
    simp only [if_neg free,if_neg closed,consumed,if_neg kept]

theorem leaving_extract {copied rest : Text} (same : after.text = cursor.text) (left : after.rest = rest)
    (taken : Reading.content boundary.isStop false cursor.rest = .ok (copied,rest)) :
    leaving boundary copied after = cursor.extract boundary := by
  symm
  cases boundary with
  | before stops =>
    have read : Reading.extract (.before stops) cursor.rest = .ok (copied,rest) := by
      rw [Reading.extract,taken]
    exact run_ok_at _ read same left
  | through expected others =>
    cases rest with
    | nil =>
      have halted : Reading.extract (.through expected others) cursor.rest = .error (.missing expected) := by
        rw [Reading.extract,taken]
      rw [leaving,if_pos (isEmpty_nil left),same]
      exact run_error_at _ halted same left
    | cons stop later =>
      have read : Reading.extract (.through expected others) cursor.rest = .ok (copied ++ [stop],later) := by
        rw [Reading.extract,taken]
      obtain ⟨next,consumed,text,behind⟩ := consume_cons left
      rw [leaving,if_neg (isEmpty_cons left),consumed]
      exact run_ok_at _ read (text.trans same) behind

theorem extract_ends (boundary : Boundary) (cursor : Cursor) :
    Ends (extractRound boundary) ([],false,cursor) (cursor.extract boundary) := by
  cases taken : Reading.content boundary.isStop false cursor.rest with
  | error halt =>
    have halted : Reading.extract boundary cursor.rest = .error halt := by rw [Reading.extract,taken]
    obtain ⟨after,stopped,text,left⟩ := run_halted (Reading.extract_onward boundary) halted
    have ends := extractRound_ends [] rfl text (left.trans (by rw [taken]; rfl))
    rw [taken,told,text] at ends
    rw [show cursor.extract boundary = _ from stopped]
    exact ends
  | ok read =>
    obtain ⟨copied,rest⟩ := read
    have left : (cursor.moveTo rest (Reading.content_suffix taken)).rest = rest := rfl
    generalize moved : cursor.moveTo rest (Reading.content_suffix taken) = after at left
    have same : after.text = cursor.text := by rw [← moved]; rfl
    have ends := extractRound_ends [] rfl same (left.trans (by rw [taken]; rfl))
    rw [taken,told,List.nil_append,leaving_extract same left taken] at ends
    exact ends

end PathExpr.Cursor
