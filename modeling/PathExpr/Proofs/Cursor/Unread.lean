import PathExpr.Proofs.Cursor.Buffered
import PathExpr.Proofs.Joining

-- What a cursor does depends on the text that is unread in front of it, and on nothing it has
-- passed. A session goes on as it would from the start of that text, with every index counted
-- from there.
namespace PathExpr.Cursor

variable {α : Type} {front : Text} {one other : Cursor}

def Reply.moved (path : Text) (distance : Nat) : Reply → Reply
  | .index place => .index (distance + place)
  | .failed failure => .failed (failure.moved path distance)
  | reply => reply

-- Two cursors with the same text unread, where one has a text more behind it.
structure Level (front : Text) (one other : Cursor) : Prop where
  text : one.text = front ++ other.text
  rest : one.rest = other.rest

namespace Level

theorem fresh (cursor : Cursor) :
    Level (cursor.text.take cursor.index) cursor (start (cursor.text.drop cursor.index)) where
  text := (List.take_append_drop _ _).symm
  rest := cursor.drop_index.symm

theorem index (level : Level front one other) : one.index = front.length + other.index := by
  have within := other.unread.length_le
  rw [Cursor.index,Cursor.index,level.text,level.rest,List.length_append]
  omega

theorem replied (level : Level front one other) {reply : α → Reply} {read : Reader α} (onward : read.Onward)
    (plain : ∀ value, (reply value).moved one.text front.length = reply value) :
    (Cursor.replied reply (one.run read onward)).1 =
        (Cursor.replied reply (other.run read onward)).1.moved one.text front.length ∧
      Level front (Cursor.replied reply (one.run read onward)).2 (Cursor.replied reply (other.run read onward)).2 := by
  cases taken : read other.rest with
  | ok result =>
    have again : read one.rest = .ok result := by rw [level.rest,taken]
    rw [run_ok onward taken,run_ok onward again]
    exact ⟨(plain result.1).symm,level.text,rfl⟩
  | error halt =>
    have again : read one.rest = .error halt := by rw [level.rest,taken]
    have moved := Halt.failure_moved front ((onward.halt taken).trans other.unread)
    rw [← level.text] at moved
    rw [run_error onward taken,run_error onward again,moved]
    exact ⟨rfl,level.text,rfl⟩

theorem skip (level : Level front one other) (mark : Text) : Level front (one.skip mark) (other.skip mark) := by
  have passed (_ : Unit) : Reply.passed.moved one.text front.length = .passed := rfl
  have after := (level.replied (Reading.skip_onward mark) passed).2
  rwa [replied_cursor,replied_cursor] at after

theorem perform (level : Level front one other) (command : Command) :
    (one.perform command).1 = (other.perform command).1.moved one.text front.length ∧
      Level front (one.perform command).2 (other.perform command).2 := by
  cases command with
  | split => exact level.replied Scan.split_onward fun _ => rfl
  | extract boundary => exact level.replied (Reading.extract_onward boundary) fun _ => rfl
  | group => exact level.replied Reading.group_onward fun _ => rfl
  | rejectNext refused => exact level.replied (Reading.rejectNext_onward refused) fun _ => rfl
  | skip mark =>
    have after := level.skip mark
    exact ⟨congrArg Reply.index after.index,after⟩
  | index => exact ⟨congrArg Reply.index level.index,level⟩

theorem session (level : Level front one other) (commands : List Command) :
    (one.session commands).1 = (other.session commands).1.map (Reply.moved one.text front.length) ∧
      Level front (one.session commands).2 (other.session commands).2 := by
  induction commands generalizing one other with
  | nil => exact ⟨rfl,level⟩
  | cons command later ih =>
    obtain ⟨reply,after⟩ := level.perform command
    obtain ⟨replies,last⟩ := ih after
    rw [(perform_onward one command).1] at replies
    rw [session_cons,session_cons,List.map_cons,reply,replies]
    exact ⟨rfl,last⟩

end Level

theorem session_fresh (cursor : Cursor) (commands : List Command) :
    let fresh := start (cursor.text.drop cursor.index)
    (cursor.session commands).1 = (fresh.session commands).1.map (Reply.moved cursor.text cursor.index) ∧
      (cursor.session commands).2.index = cursor.index + (fresh.session commands).2.index := by
  obtain ⟨replies,last⟩ := (Level.fresh cursor).session commands
  have place := last.index
  rw [List.length_take_of_le cursor.index_le_length] at replies place
  exact ⟨replies,place⟩

theorem session_unread (text : Text) (earlier later : List Command) :
    ∃ before index replies last,
      Scanner.session earlier ⟨text,0⟩ = some (before,⟨text,index⟩) ∧
      Scanner.session later ⟨text.drop index,0⟩ = some (replies,⟨text.drop index,last⟩) ∧
      Scanner.session later ⟨text,index⟩ = some (replies.map (Reply.moved text index),⟨text,index + last⟩) ∧
      ((start text).session earlier).1 = before ∧
      ((start (text.drop index)).session later).1 = replies ∧
      (((start text).session earlier).2.session later).1 = replies.map (Reply.moved text index) := by
  have reached := Scanner.session_start text earlier
  have same : ((start text).session earlier).2.text = text := (session_onward (start text) earlier).1
  generalize (start text).session earlier = run at reached same
  obtain ⟨before,here⟩ := run
  dsimp only at reached same ⊢
  subst same
  obtain ⟨replies,place⟩ := session_fresh here later
  have onward := Scanner.session_within here later
  rw [replies,place] at onward
  exact ⟨before,here.index,_,_,reached,Scanner.session_start _ later,onward,rfl,rfl,replies⟩

end PathExpr.Cursor
