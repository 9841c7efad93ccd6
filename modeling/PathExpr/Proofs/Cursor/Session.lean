import PathExpr.Cursor.Session
import PathExpr.Proofs.Cursor.Extent

-- Sessions with a cursor, whatever succeeds or fails in them. A failure tells where it leaves
-- the cursor, no command goes back, and a finished split leaves nothing for those after it.
namespace PathExpr

namespace Reading

variable {boundary : Boundary} {text : Text} {halt : Halt}

theorem extract_halts (stopped : extract boundary text = .error halt) :
    halt = .unclosedGroup ∨ ∃ expected, halt = .missing expected := by
  unfold extract at stopped
  split at stopped
  · rename_i found
    cases stopped
    exact .inl (content_halts found)
  · split at stopped
    · cases stopped
    · cases stopped; exact .inr ⟨_,rfl⟩
    · cases stopped

theorem rejectNext_halts {refused : List Text} (stopped : rejectNext refused text = .error halt) :
    ∃ c after, halt = .unexpected c after := by
  unfold rejectNext at stopped
  split at stopped
  · cases stopped
  · split at stopped
    · cases stopped; exact ⟨_,_,rfl⟩
    · cases stopped

end Reading

theorem Scan.split_halts {text : Text} {halt : Halt} (stopped : split text = .error halt) : halt ≠ .exhausted := by
  rw [Mode.split_run,Mode.outcome] at stopped
  cases ran : Mode.run .top text with
  | ok pieces => rw [ran] at stopped; cases stopped
  | error found =>
    rw [ran] at stopped
    cases stopped
    rcases Mode.run_halts ran with rfl | rfl | ⟨rest,rfl⟩ <;> exact Halt.noConfusion

theorem Scan.split_finished {text rest : Text} {fragments : List Fragment}
    (taken : split text = .ok (fragments,rest)) : rest = [] := by
  unfold split at taken
  dsimp only at taken
  split at taken
  · cases taken; rfl
  · cases taken

namespace Cursor

variable {α : Type} {cursor after : Cursor} {command : Command} {failure : Failure}

theorem session_cons (cursor : Cursor) (command : Command) (later : List Command) :
    cursor.session (command :: later) = ((cursor.perform command).1 :: ((cursor.perform command).2.session later).1,
      ((cursor.perform command).2.session later).2) := rfl

theorem session_concat (cursor : Cursor) (earlier : List Command) (command : Command) :
    cursor.session (earlier ++ [command]) = ((cursor.session earlier).1 ++
      [((cursor.session earlier).2.perform command).1],((cursor.session earlier).2.perform command).2) := by
  induction earlier generalizing cursor with
  | nil => rfl
  | cons first earlier ih => rw [List.cons_append,session_cons,session_cons,ih,List.cons_append]

theorem session_onward (cursor : Cursor) (commands : List Command) :
    (cursor.session commands).2.text = cursor.text ∧ (cursor.session commands).2.rest <:+ cursor.rest := by
  induction commands generalizing cursor with
  | nil => exact ⟨rfl,List.suffix_refl _⟩
  | cons command later ih =>
    obtain ⟨text,onward⟩ := perform_onward cursor command
    obtain ⟨same,further⟩ := ih (cursor.perform command).2
    exact ⟨same.trans text,further.trans onward⟩

theorem index_onward {one other : Cursor} (text : other.text = one.text) (onward : other.rest <:+ one.rest) :
    one.index ≤ other.index := by
  have shorter := onward.length_le
  rw [index,index,text]
  omega

theorem index_ended (ended : cursor.rest = []) : cursor.index = cursor.text.length := by
  rw [index,ended]
  rfl

theorem index_before {c : Char} {after : Text} (unread : cursor.rest = c :: after) :
    cursor.index < cursor.text.length ∧ cursor.text[cursor.index]? = some c := by
  have found : cursor.text[cursor.index]? = some c := by
    rw [← List.head?_drop,cursor.drop_index,unread]
    rfl
  exact ⟨(List.getElem?_eq_some_iff.mp found).1,found⟩

theorem isEmpty_iff (cursor : Cursor) : cursor.isEmpty = true ↔ cursor.index = cursor.text.length := by
  rw [isEmpty,List.isEmpty_iff,← cursor.drop_index,List.drop_eq_nil_iff]
  exact ⟨Nat.le_antisymm cursor.index_le_length,Nat.le_of_eq ∘ Eq.symm⟩

theorem peek_iff (cursor : Cursor) (c : Char) : cursor.peek = .ok c ↔ cursor.text[cursor.index]? = some c := by
  rw [← List.head?_drop,cursor.drop_index]
  cases unread : cursor.rest with
  | nil =>
    have halted : Reading.next cursor.rest = .error .exhausted := by rw [unread]; rfl
    rw [peek,consume,run_error _ halted]
    simp
  | cons d rest =>
    rw [peek_cons unread]
    simp

theorem replied_cases (cursor : Cursor) (reply : α → Reply) {read : Reader α} (onward : read.Onward) :
    (∃ value after, read cursor.rest = .ok (value,after.rest) ∧
      replied reply (cursor.run read onward) = (reply value,after)) ∨
    ∃ halt after, read cursor.rest = .error halt ∧ after.rest = halt.rest ∧
      replied reply (cursor.run read onward) = (.failed (halt.failure cursor.text),after) := by
  cases taken : read cursor.rest with
  | ok result => rw [run_ok onward taken]; exact .inl ⟨_,_,rfl,rfl⟩
  | error halt => rw [run_error onward taken]; exact .inr ⟨halt,_,rfl,rfl,rfl⟩

theorem replied_failed {reply : α → Reply} {read : Reader α} (onward : read.Onward)
    (plain : ∀ value, reply value ≠ .failed failure)
    (performed : replied reply (cursor.run read onward) = (.failed failure,after)) :
    ∃ halt, read cursor.rest = .error halt ∧ failure = halt.failure cursor.text ∧ after.rest = halt.rest := by
  rcases replied_cases cursor reply onward with ⟨value,last,_,same⟩ | ⟨halt,last,halted,left,same⟩
  · obtain ⟨told,_⟩ := Prod.mk.inj (same.symm.trans performed)
    exact absurd told (plain value)
  · cases same.symm.trans performed
    exact ⟨halt,halted,rfl,left⟩

-- Whatever fails, the halt behind it is what the cursor is left at.
theorem perform_failed (performed : cursor.perform command = (.failed failure,after)) :
    ∃ halt : Halt, failure = halt.failure cursor.text ∧ after.rest = halt.rest ∧
      (halt = .exhausted → command = .group ∧ cursor.rest = []) := by
  cases command with
  | split =>
    obtain ⟨halt,halted,told,left⟩ := replied_failed Scan.split_onward (fun _ => Reply.noConfusion) performed
    exact ⟨halt,told,left,fun none => absurd none (Scan.split_halts halted)⟩
  | extract boundary =>
    obtain ⟨halt,halted,told,left⟩ :=
      replied_failed (Reading.extract_onward boundary) (fun _ => Reply.noConfusion) performed
    refine ⟨halt,told,left,?_⟩
    rcases Reading.extract_halts halted with rfl | ⟨_,rfl⟩ <;> exact Halt.noConfusion
  | group =>
    obtain ⟨halt,halted,told,left⟩ := replied_failed Reading.group_onward (fun _ => Reply.noConfusion) performed
    refine ⟨halt,told,left,?_⟩
    rcases Reading.group_halts halted with ⟨rfl,none⟩ | ⟨rfl,_⟩
    · exact fun _ => ⟨rfl,none⟩
    · exact Halt.noConfusion
  | rejectNext refused =>
    obtain ⟨halt,halted,told,left⟩ :=
      replied_failed (Reading.rejectNext_onward refused) (fun _ => Reply.noConfusion) performed
    obtain ⟨_,_,rfl⟩ := Reading.rejectNext_halts halted
    exact ⟨_,told,left,Halt.noConfusion⟩
  | skip | index => cases performed

theorem perform_incomplete {used : Text} {fault : Fault}
    (performed : cursor.perform command = (.failed (.unusable used fault),after))
    (incomplete : fault.className = "IncompletePathError".toList) : after.rest = [] := by
  obtain ⟨halt,told,left,_⟩ := perform_failed performed
  cases halt with
  | exhausted => cases told
  | missing | unclosedGroup => exact left
  | unexpected c later =>
    cases told
    have other : "UnexpectedCharacterError".toList = "IncompletePathError".toList := incomplete
    exact absurd other (by decide)

theorem perform_unexpected {used : Text} {c : Char} {index : Nat} (text : after.text = cursor.text)
    (performed : cursor.perform command = (.failed (.unusable used (.unexpected c index)),after)) :
    after.index = index ∧ ∃ later, after.rest = c :: later := by
  obtain ⟨halt,told,left,_⟩ := perform_failed performed
  cases halt with
  | exhausted | missing | unclosedGroup => cases told
  | unexpected d later =>
    cases told
    refine ⟨?_,later,left⟩
    rw [Cursor.index,left,text]
    rfl

theorem perform_exhausted {index : Nat} (performed : cursor.perform command = (.failed (.endOfInput index),after)) :
    command = .group ∧ cursor.rest = [] ∧ after.rest = [] := by
  obtain ⟨halt,told,left,group⟩ := perform_failed performed
  cases halt with
  | missing | unclosedGroup | unexpected => cases told
  | exhausted =>
    obtain ⟨same,none⟩ := group rfl
    exact ⟨same,none,left⟩

theorem perform_fragments {fragments : List Fragment}
    (performed : cursor.perform command = (.fragments fragments,after)) : after.rest = [] := by
  have other {α : Type} {reply : α → Reply} {read : Reader α} (onward : read.Onward)
      (plain : ∀ value, reply value ≠ .fragments fragments) :
      replied reply (cursor.run read onward) ≠ (.fragments fragments,after) := by
    intro performed
    rcases replied_cases cursor reply onward with ⟨value,last,_,same⟩ | ⟨_,last,_,_,same⟩
    · exact plain value (Prod.mk.inj (same.symm.trans performed)).1
    · cases same.symm.trans performed
  cases command with
  | split =>
    rcases replied_cases cursor .fragments Scan.split_onward with ⟨_,last,taken,same⟩ | ⟨_,last,_,_,same⟩
    · cases same.symm.trans performed
      exact Scan.split_finished taken
    · cases same.symm.trans performed
  | extract boundary => exact absurd performed (other _ fun _ => Reply.noConfusion)
  | group => exact absurd performed (other _ fun _ => Reply.noConfusion)
  | rejectNext refused => exact absurd performed (other _ fun _ => Reply.noConfusion)
  | skip | index => cases performed

theorem split_ended (ended : cursor.rest = []) : (cursor.perform .split).1 = .fragments [] := by
  have taken : Scan.split cursor.rest = .ok ([],[]) := by
    rw [ended,Scan.split,Scan.of_ending (show Sighting.of [] = .ending from rfl)]
    rfl
  have split : cursor.split = (.ok [],_) := run_ok Scan.split_onward taken
  rw [perform,split]
  rfl

structure Advance (text : Text) (before : Cursor) (command : Command) (reply : Reply) (after : Cursor) : Prop where
  onward : before.index ≤ after.index
  within : after.index ≤ text.length
  further : ∀ later, after.index ≤ (after.session later).2.index ∧ (after.session later).2.index ≤ text.length
  empty : after.isEmpty = true ↔ after.index = text.length
  ahead : ∀ c, after.peek = .ok c ↔ text[after.index]? = some c
  incomplete : ∀ used fault, reply = .failed (.unusable used fault) →
    fault.className = "IncompletePathError".toList → after.index = text.length
  unexpected : ∀ used c index, reply = .failed (.unusable used (.unexpected c index)) →
    after.index = index ∧ index < text.length ∧ text[index]? = some c
  exhausted : ∀ index, reply = .failed (.endOfInput index) →
    command = .group ∧ before.index = text.length ∧ after.index = text.length
  finished : ∀ fragments, reply = .fragments fragments → after.index = text.length ∧
    ∀ later, ((after.session later).2.perform .split).1 = .fragments []

theorem perform_advance {text : Text} {reply : Reply} (inside : cursor.text = text)
    (performed : cursor.perform command = (reply,after)) : Advance text cursor command reply after := by
  obtain ⟨same,onward⟩ := perform_onward cursor command
  rw [performed] at same onward
  have still : after.text = text := same.trans inside
  exact {
    onward := index_onward same onward
    within := by rw [← still]; exact after.index_le_length
    further := by
      intro later
      obtain ⟨kept,further⟩ := session_onward after later
      refine ⟨index_onward kept further,?_⟩
      rw [← still,← kept]
      exact index_le_length _
    empty := by rw [← still]; exact after.isEmpty_iff
    ahead := by rw [← still]; exact after.peek_iff
    incomplete := by
      rintro used fault rfl incomplete
      rw [← still]
      exact index_ended (perform_incomplete performed incomplete)
    unexpected := by
      rintro used c index rfl
      obtain ⟨place,later,unread⟩ := perform_unexpected same performed
      have before := index_before unread
      rw [place,still] at before
      exact ⟨place,before⟩
    exhausted := by
      rintro index rfl
      obtain ⟨group,none,left⟩ := perform_exhausted performed
      have before := index_ended none
      have behind := index_ended left
      rw [inside] at before
      rw [still] at behind
      exact ⟨group,before,behind⟩
    finished := by
      rintro fragments rfl
      have none := perform_fragments performed
      have place := index_ended none
      rw [still] at place
      refine ⟨place,fun later => split_ended ?_⟩
      have further := (session_onward after later).2
      rw [none] at further
      exact List.suffix_nil.mp further }

theorem session_advance (text : Text) (earlier : List Command) (command : Command) :
    let before := ((start text).session earlier).2
    (start text).session (earlier ++ [command]) =
        (((start text).session earlier).1 ++ [(before.perform command).1],(before.perform command).2) ∧
      Advance text before command (before.perform command).1 (before.perform command).2 := by
  intro before
  have inside : before.text = text := (session_onward (start text) earlier).1
  exact ⟨session_concat (start text) earlier command,perform_advance inside rfl⟩

example : ((start "a...(b".toList).session [.split,.index,.group,.index,.group,.split]).1 =
    [.failed (.unusable "a...(b".toList (.unexpected '.' 3)),.index 3,
      .failed (.unusable "a...(b".toList .unclosedGroup),.index 6,.failed (.endOfInput 6),.fragments []] := by
  decide +kernel

end Cursor
end PathExpr
