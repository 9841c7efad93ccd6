import PathExpr.Proofs.Cursor.Extraction
import PathExpr.Proofs.Cursor.Round
import PathExpr.Proofs.Cursor.Scanner
import PathExpr.Proofs.Cursor.Session

-- What is found at the index of a cursor is what its readers find in front of them. Every
-- loop over text and index comes to an end, and to what the operation of the cursor comes to.
namespace PathExpr

namespace Cursor

variable {cursor : Cursor}

def buffer (cursor : Cursor) : Buffer := ⟨cursor.text,cursor.index⟩

def seen {α : Type} (run : Except Failure α × Cursor) : Option (Except Failure α × Buffer) :=
  some (run.1,run.2.buffer)

theorem buffer_left (cursor : Cursor) : cursor.buffer.left = cursor.rest.length :=
  Nat.sub_sub_self cursor.unread.length_le

theorem consume_ended (ended : cursor.isEmpty = true) :
    cursor.consume = (.error (.endOfInput cursor.index),cursor) := by
  have unread : cursor.rest = [] := List.isEmpty_iff.mp ended
  have halted : Reading.next cursor.rest = .error .exhausted := by rw [unread]; rfl
  rw [index_ended unread]
  exact run_error_at _ halted rfl unread

theorem consume_ahead (ahead : ¬cursor.isEmpty = true) : ∃ c after,
    cursor.consume = (.ok c,after) ∧ cursor.peek = .ok c ∧ after.buffer = ⟨cursor.text,cursor.index + 1⟩ := by
  cases unread : cursor.rest with
  | nil => exact absurd (isEmpty_nil unread) ahead
  | cons c rest =>
    obtain ⟨after,consumed,text,left⟩ := consume_cons unread
    have place : after.index = cursor.index + 1 := by
      have bound := cursor.unread.length_le
      simp only [index,text,left,unread,List.length_cons] at bound ⊢
      omega
    exact ⟨c,after,consumed,peek_cons unread,by rw [buffer,text,place]⟩

theorem skip_ended (ended : cursor.isEmpty = true) (mark : Text) : cursor.skip mark = cursor := by
  have unread : cursor.rest = [] := List.isEmpty_iff.mp ended
  exact skip_stays (by rw [unread]; rfl)

theorem run_shorter {α : Type} {read : Reader α} {onward : read.Onward} {value : α} {after : Cursor}
    (shorter : ∀ {rest}, read cursor.rest = .ok (value,rest) → rest.length < cursor.rest.length)
    (ran : cursor.run read onward = (.ok value,after)) : after.rest.length < cursor.rest.length := by
  cases taken : read cursor.rest with
  | error halt => rw [run_error onward taken] at ran; cases ran
  | ok result => rw [run_ok onward taken] at ran; cases ran; exact shorter taken

theorem consume_shorter {c : Char} {after : Cursor} (consumed : cursor.consume = (.ok c,after)) :
    after.rest.length < cursor.rest.length := by
  refine run_shorter (fun {rest} taken => ?_) consumed
  cases unread : cursor.rest with
  | nil => rw [unread] at taken; cases taken
  | cons c rest => rw [unread] at taken; cases taken; exact Nat.lt_succ_self _

theorem skipRound_shorter {mark : Text} {next : Cursor} (went : skipRound mark cursor = .onward next) :
    next.rest.length < cursor.rest.length := by
  unfold skipRound at went
  split at went
  · cases went
  · split at went
    · rename_i consumed
      split at went
      · cases went; exact consume_shorter consumed
      · cases went
    · cases went

theorem groupRound_shorter {copied : Text} {next : Text × Cursor}
    (went : groupRound (copied,cursor) = .onward next) : next.2.rest.length < cursor.rest.length := by
  unfold groupRound at went
  dsimp only at went
  split at went
  · cases went
  · split at went
    · rename_i consumed
      split at went
      · cases went
      · cases went; exact consume_shorter consumed
    · cases went

theorem extractRound_shorter {boundary : Boundary} {copied : Text} {escaped : Bool} {next : Text × Bool × Cursor}
    (went : extractRound boundary (copied,escaped,cursor) = .onward next) :
    next.2.2.rest.length < cursor.rest.length := by
  unfold extractRound at went
  dsimp only at went
  split at went
  · cases went
  · split at went
    · split at went
      · cases went
      · split at went
        · split at went
          · rename_i copies
            cases went
            exact run_shorter Reading.group_shorter copies
          · cases went
        · split at went
          · rename_i consumed
            split at went <;> cases went <;> exact consume_shorter consumed
          · cases went
    · cases went

theorem round_shorter {fragments : List Fragment} {next : List Fragment × Cursor}
    (went : round (fragments,cursor) = .onward next) : next.2.rest.length < cursor.rest.length := by
  obtain ⟨text,onward⟩ := round_onward went
  rw [index,index,text] at onward
  omega

end Cursor

namespace Scanner

open Cursor (seen)

variable {σ ρ α : Type} (cursor : Cursor)

def turned (apart : ρ → σ × Cursor) :
    Turn ρ (Except Failure α × Cursor) → Option (Except Failure (Turn σ α) × Buffer)
  | .ended (.ok value,after) => some (.ok (.ended value),after.buffer)
  | .ended (.error failure,after) => some (.error failure,after.buffer)
  | .onward next => some (.ok (.onward (apart next).1),(apart next).2.buffer)

-- Round by round the loop over text and index goes the way of the loop on a cursor, and where
-- that one ends, it ends.
theorem loop_seen (apart : ρ → σ × Cursor) {scan : σ → Scanner (Turn σ α)}
    {round : ρ → Turn ρ (Except Failure α × Cursor)} {state : ρ} {result : Except Failure α × Cursor}
    (same : ∀ state, scan (apart state).1 (apart state).2.buffer = turned apart (round state))
    (shorter : ∀ {state next}, round state = .onward next →
      (apart next).2.rest.length < (apart state).2.rest.length)
    (ends : Ends round state result) : loop scan (apart state).1 (apart state).2.buffer = seen result := by
  induction ends with
  | @now state result ended =>
    rw [loop,same,ended]
    rcases result with ⟨failure | value,after⟩ <;> rfl
  | @later state next result went _ ih =>
    rw [loop,same,went]
    refine (if_pos ?_).trans ih
    rw [Cursor.buffer_left,Cursor.buffer_left]
    exact shorter went

theorem isEmpty_seen : isEmpty cursor.buffer = seen (.ok cursor.isEmpty,cursor) := by
  have same : (cursor.index == cursor.text.length) = cursor.isEmpty := by
    rw [Bool.eq_iff_iff,cursor.isEmpty_iff,beq_iff_eq]
  rw [← same]
  rfl

theorem peek_seen : peek cursor.buffer = seen (cursor.peek,cursor) := by
  by_cases ended : cursor.isEmpty = true
  · have none : cursor.buffer.text[cursor.buffer.index]? = none :=
      List.getElem?_eq_none (Nat.le_of_eq (cursor.isEmpty_iff.mp ended).symm)
    rw [Cursor.peek,Cursor.consume_ended ended]
    simp only [peek,run_bind,run_get,none]
    rfl
  · obtain ⟨c,_,_,peeked,_⟩ := Cursor.consume_ahead ended
    have found : cursor.buffer.text[cursor.buffer.index]? = some c := (cursor.peek_iff c).mp peeked
    rw [peeked]
    simp only [peek,run_bind,run_get,found]
    rfl

theorem consume_seen : consume cursor.buffer = seen cursor.consume := by
  rw [consume,run_bind,peek_seen]
  by_cases ended : cursor.isEmpty = true
  · rw [Cursor.peek,Cursor.consume_ended ended]
    rfl
  · obtain ⟨c,after,consumed,peeked,onward⟩ := Cursor.consume_ahead ended
    simp only [peeked,consumed,seen,onward]
    rfl

theorem isEmpty_bind (next : Bool → Scanner α) :
    (isEmpty >>= next) cursor.buffer = next cursor.isEmpty cursor.buffer := by
  rw [run_bind,isEmpty_seen]
  rfl

theorem peek_bind {c : Char} (peeked : cursor.peek = .ok c) (next : Char → Scanner α) :
    (peek >>= next) cursor.buffer = next c cursor.buffer := by
  rw [run_bind,peek_seen,peeked]
  rfl

theorem consume_bind {c : Char} {after : Cursor} (consumed : cursor.consume = (.ok c,after))
    (next : Char → Scanner α) : (consume >>= next) cursor.buffer = next c after.buffer := by
  rw [run_bind,consume_seen,consumed]
  rfl

theorem skipRound_seen (mark : Text) :
    skipRound mark () cursor.buffer = turned (fun here => ((),here)) (Cursor.skipRound mark cursor) := by
  rw [skipRound,Cursor.skipRound,isEmpty_bind]
  by_cases ended : cursor.isEmpty = true
  · rw [if_pos ended,if_pos ended]
    rfl
  obtain ⟨c,after,consumed,peeked,_⟩ := Cursor.consume_ahead ended
  rw [if_neg ended,if_neg ended,peek_bind _ peeked,consumed]
  by_cases met : mark = [c]
  · rw [if_neg (not_not.mpr met),consume_bind _ consumed]
    simp only [if_pos met]
    rfl
  · simp only [if_pos met,if_neg met]
    rfl

theorem skip_seen (mark : Text) : skip mark cursor.buffer = seen (.ok (),cursor.skip mark) :=
  loop_seen (fun here => ((),here)) (fun here => skipRound_seen here mark)
    Cursor.skipRound_shorter (Cursor.skip_ends mark cursor)

theorem groupRound_seen (copied : Text) :
    groupRound copied cursor.buffer = turned id (Cursor.groupRound (copied,cursor)) := by
  rw [groupRound,Cursor.groupRound,isEmpty_bind]
  by_cases ended : cursor.isEmpty = true
  · rw [if_pos ended,if_pos ended]
    rfl
  obtain ⟨c,after,consumed,_⟩ := Cursor.consume_ahead ended
  rw [if_neg ended,if_neg ended,consume_bind _ consumed,consumed]
  dsimp only
  split <;> rfl

theorem group_seen : group cursor.buffer = seen cursor.group := by
  rw [group]
  cases unread : cursor.rest with
  | nil =>
    have halted : Reading.group cursor.rest = .error .exhausted := by rw [unread]; rfl
    rw [run_bind,consume_seen,Cursor.consume_ended (Cursor.isEmpty_nil unread),Cursor.index_ended unread]
    rw [Cursor.group,Cursor.run_error_at _ halted rfl unread]
    rfl
  | cons opening rest =>
    obtain ⟨after,consumed,ends⟩ := Cursor.group_ends unread
    rw [consume_bind _ consumed]
    exact loop_seen id (fun (copied,here) => groupRound_seen here copied) Cursor.groupRound_shorter ends

theorem leaving_seen (boundary : Boundary) (copied : Text) :
    leaving boundary copied cursor.buffer = seen (Cursor.leaving boundary copied cursor) := by
  cases boundary with
  | before => rfl
  | through expected others =>
    rw [leaving,Cursor.leaving,isEmpty_bind]
    by_cases ended : cursor.isEmpty = true
    · rw [if_pos ended,if_pos ended]
      rfl
    · obtain ⟨c,after,consumed,_⟩ := Cursor.consume_ahead ended
      rw [if_neg ended,if_neg ended,consume_bind _ consumed,consumed]
      rfl

def parted : Text × Bool × Cursor → (Text × Bool) × Cursor
  | (copied,escaped,here) => ((copied,escaped),here)

theorem extractRound_seen (boundary : Boundary) (copied : Text) (escaped : Bool) :
    extractRound boundary (copied,escaped) cursor.buffer =
      turned parted (Cursor.extractRound boundary (copied,escaped,cursor)) := by
  rw [extractRound,Cursor.extractRound,isEmpty_bind]
  by_cases ended : cursor.isEmpty = true
  · rw [if_pos ended,if_pos ended,run_bind,leaving_seen]
    rcases Cursor.leaving boundary copied cursor with ⟨failure | raw,after⟩ <;> rfl
  obtain ⟨c,after,consumed,peeked,_⟩ := Cursor.consume_ahead ended
  rw [if_neg ended,if_neg ended,peek_bind _ peeked,peeked]
  dsimp only
  by_cases stops : (!escaped && boundary.isStop c) = true
  · rw [if_pos stops,if_pos stops,run_bind,leaving_seen]
    rcases Cursor.leaving boundary copied cursor with ⟨failure | raw,after⟩ <;> rfl
  rw [if_neg stops,if_neg stops]
  by_cases opens : (!escaped && decide (c = '(')) = true
  · rw [if_pos opens,if_pos opens,run_bind,group_seen]
    rcases cursor.group with ⟨failure | inner,behind⟩ <;> rfl
  · rw [if_neg opens,if_neg opens,consume_bind _ consumed,consumed]
    by_cases slash : c = '\\' <;> simp [slash,run_pure,turned,parted]

theorem extract_seen (boundary : Boundary) : extract boundary cursor.buffer = seen (cursor.extract boundary) :=
  loop_seen parted (fun (copied,escaped,here) => extractRound_seen here boundary copied escaped)
    Cursor.extractRound_shorter (Cursor.extract_ends boundary cursor)

theorem rejectNext_seen (refused : List Text) :
    rejectNext refused cursor.buffer = seen (cursor.rejectNext refused) := by
  rw [rejectNext,isEmpty_bind]
  cases unread : cursor.rest with
  | nil =>
    have taken : Reading.rejectNext refused cursor.rest = .ok ((),[]) := by rw [unread]; rfl
    rw [Cursor.rejectNext,Cursor.run_ok_at _ taken rfl unread,if_pos (Cursor.isEmpty_nil unread)]
    rfl
  | cons c rest =>
    rw [if_neg (Cursor.isEmpty_cons unread),peek_bind _ (Cursor.peek_cons unread),run_bind,run_get]
    dsimp only
    by_cases met : refused.contains [c] = true
    · have halted : Reading.rejectNext refused cursor.rest = .error (.unexpected c rest) := by
        rw [unread,Reading.rejectNext,if_pos met]
      rw [Cursor.rejectNext,Cursor.run_error_at _ halted rfl unread,if_pos met,Halt.failure,← unread]
      rfl
    · have taken : Reading.rejectNext refused cursor.rest = .ok ((),c :: rest) := by
        rw [unread,Reading.rejectNext,if_neg met]
      rw [Cursor.rejectNext,Cursor.run_ok_at _ taken rfl unread,if_neg met]
      rfl

theorem behindDot_seen (fragments : List Fragment) {before : Cursor} {c : Char}
    (consumed : before.consume = (.ok c,cursor)) :
    behindDot fragments cursor.buffer = turned id (Cursor.behindDot fragments before.consume) := by
  rw [behindDot,consumed,Cursor.behindDot,isEmpty_bind]
  by_cases ended : cursor.isEmpty = true
  · rw [if_pos ended,if_pos ended]
    rfl
  obtain ⟨second,behind,consumed,peeked,_⟩ := Cursor.consume_ahead ended
  rw [if_neg ended,if_neg ended,peek_bind _ peeked,peeked]
  dsimp only
  by_cases dotted : second = '.'
  · rw [if_neg (not_not.mpr dotted),if_pos dotted,consume_bind _ consumed,consumed,run_bind,rejectNext_seen]
    rw [Cursor.behindDots]
    rcases behind.rejectNext [['.']] with ⟨failure | _,last⟩ <;> rfl
  · rw [if_pos dotted,if_neg dotted]
    rfl

theorem splitRound_seen (fragments : List Fragment) :
    splitRound fragments cursor.buffer = turned id (Cursor.round (fragments,cursor)) := by
  rw [splitRound,Cursor.round,isEmpty_bind]
  by_cases ended : cursor.isEmpty = true
  -- The loop over the index stops before it skips blanks, the other behind them: none are left.
  · rw [if_pos ended,Cursor.skip_ended ended,Cursor.roundFrom,if_pos ended]
    rfl
  rw [if_neg ended,run_bind,skip_seen]
  generalize cursor.skip [' '] = here
  dsimp only [seen]
  rw [isEmpty_bind,Cursor.roundFrom]
  by_cases ended : here.isEmpty = true
  · rw [if_pos ended,if_pos ended]
    rfl
  obtain ⟨c,after,consumed,peeked,_⟩ := Cursor.consume_ahead ended
  rw [if_neg ended,if_neg ended,peek_bind _ peeked,peeked]
  dsimp only
  by_cases root : c = '$'
  · rw [if_pos root,if_pos root,consume_bind _ consumed,consumed]
    rfl
  rw [if_neg root,if_neg root]
  by_cases dot : c = '.'
  · rw [if_pos dot,if_pos dot,consume_bind _ consumed]
    exact behindDot_seen after fragments consumed
  rw [if_neg dot,if_neg dot]
  by_cases bracket : c = '['
  · rw [if_pos bracket,if_pos bracket,run_bind,extract_seen]
    rcases here.extract (.through [']'] []) with ⟨failure | raw,behind⟩ <;> rfl
  · rw [if_neg bracket,if_neg bracket,run_bind,extract_seen]
    rcases here.extract (.before [['['],['.']]) with ⟨failure | raw,behind⟩ <;> rfl

theorem split_seen : split cursor.buffer = seen cursor.split := by
  refine (loop_seen id (fun (fragments,here) => splitRound_seen here fragments) Cursor.round_shorter
    (Cursor.split_ends [] cursor)).trans ?_
  rcases cursor.split with ⟨failure | fragments,after⟩ <;> rfl

theorem answer_seen {reply : α → Cursor.Reply} {scan : Scanner α} {run : Except Failure α × Cursor}
    (scanned : scan cursor.buffer = seen run) : answer reply scan cursor.buffer =
      some ((Cursor.replied reply run).1,(Cursor.replied reply run).2.buffer) := by
  simp only [answer,bind,StateT.bind,ExceptT.run,scanned,seen]
  obtain ⟨failure | value,after⟩ := run <;> rfl

theorem perform_seen (command : Cursor.Command) : perform command cursor.buffer =
    some ((cursor.perform command).1,(cursor.perform command).2.buffer) := by
  cases command with
  | split => exact answer_seen cursor (split_seen cursor)
  | extract boundary => exact answer_seen cursor (extract_seen cursor boundary)
  | group => exact answer_seen cursor (group_seen cursor)
  | rejectNext refused => exact answer_seen cursor (rejectNext_seen cursor refused)
  | index => rfl
  | skip mark =>
    have skipped : (do skip mark; return (← get).index : Scanner Nat) cursor.buffer =
        seen (.ok (cursor.skip mark).index,cursor.skip mark) := by
      rw [run_bind,skip_seen]
      rfl
    exact answer_seen cursor skipped

theorem session_seen (commands : List Cursor.Command) : session commands cursor.buffer =
    some ((cursor.session commands).1,(cursor.session commands).2.buffer) := by
  induction commands generalizing cursor with
  | nil => rfl
  | cons command later ih =>
    have rest := ih (cursor.perform command).2
    rw [session] at rest
    rw [session,List.mapM_cons]
    simp only [bind,StateT.bind,perform_seen,Option.bind_some,rest,Cursor.session_cons]
    rfl

theorem session_within (commands : List Cursor.Command) : session commands ⟨cursor.text,cursor.index⟩ =
    some ((cursor.session commands).1,⟨cursor.text,(cursor.session commands).2.index⟩) := by
  have whole := session_seen cursor commands
  rwa [Cursor.buffer,Cursor.buffer,(Cursor.session_onward cursor commands).1] at whole

theorem session_start (text : Text) (commands : List Cursor.Command) : session commands ⟨text,0⟩ =
    some (((Cursor.start text).session commands).1,⟨text,((Cursor.start text).session commands).2.index⟩) := by
  have within := session_within (Cursor.start text) commands
  rwa [show (Cursor.start text).index = 0 from Nat.sub_self _] at within

end Scanner
end PathExpr
