import PathExpr.Proofs.Cursor
import PathExpr.Proofs.Rounds

-- The scan as a loop on a cursor. Every look ahead and every step goes through the
-- cursor, which has a failure of its own where nothing is left to read.
namespace PathExpr.Cursor

variable {α : Type} {cursor here after : Cursor} {fragments : List Fragment}

abbrev Round := Turn (List Fragment × Cursor) (Except Failure (List Fragment) × Cursor)

def taking (fragments : List Fragment) (make : α → Fragment) : Except Failure α × Cursor → Round
  | (.ok value,after) => .onward (fragments ++ [make value],after)
  | (.error failure,after) => .ended (.error failure,after)

def behindDots (fragments : List Fragment) : Except Failure Char × Cursor → Round
  | (.ok _,after) => taking fragments (fun _ => .descent) (after.rejectNext [['.']])
  | (.error failure,after) => .ended (.error failure,after)

def behindDot (fragments : List Fragment) : Except Failure Char × Cursor → Round
  | (.ok _,after) =>
    if after.isEmpty then .onward (fragments,after)
    else match after.peek with
      | .ok c => if c = '.' then behindDots fragments after.consume else .onward (fragments,after)
      | .error failure => .ended (.error failure,after)
  | (.error failure,after) => .ended (.error failure,after)

def roundFrom (fragments : List Fragment) (here : Cursor) : Round :=
  if here.isEmpty then .ended (.ok fragments,here)
  else match here.peek with
    | .ok c =>
      if c = '$' then taking fragments (fun c => ⟨[c],false⟩) here.consume
      else if c = '.' then behindDot fragments here.consume
      else if c = '[' then
        taking fragments (fun raw => ⟨Sugar.cleanBracketed raw,true⟩) (here.extract (.through [']'] []))
      else taking fragments (fun raw => ⟨Sugar.clean raw,false⟩) (here.extract (.before [['['],['.']]))
    | .error failure => .ended (.error failure,here)

def round : List Fragment × Cursor → Round
  | (fragments,cursor) => roundFrom fragments (cursor.skip [' '])

def skipRound (mark : Text) (here : Cursor) : Turn Cursor (Except Failure Unit × Cursor) :=
  if here.isEmpty then .ended (.ok (),here)
  else match here.consume with
    | (.ok c,after) => if mark = [c] then .onward after else .ended (.ok (),here)
    | (.error failure,_) => .ended (.error failure,here)

theorem skip_left (cursor : Cursor) (mark : Text) :
    (cursor.skip mark).rest = cursor.rest.dropWhile fun c => mark == [c] := by
  have taken : Reading.skip mark cursor.rest = .ok ((),cursor.rest.dropWhile fun c => mark == [c]) := rfl
  rw [skip,run_ok _ taken]
  rfl

theorem skip_stays {mark : Text} (stands : cursor.rest.dropWhile (fun c => mark == [c]) = cursor.rest) :
    cursor.skip mark = cursor :=
  eq_of_rest (run_text _ _ _) ((skip_left cursor mark).trans stands)

theorem skip_ends (mark : Text) (cursor : Cursor) : Ends (skipRound mark) cursor (.ok (),cursor.skip mark) := by
  generalize unread : cursor.rest = text
  induction text generalizing cursor with
  | nil =>
    rw [skip_stays (by rw [unread]; rfl)]
    exact .now (if_pos (isEmpty_nil unread))
  | cons c rest ih =>
    obtain ⟨after,consumed,text,left⟩ := consume_cons unread
    have met : skipRound mark cursor = if mark = [c] then .onward after else .ended (.ok (),cursor) := by
      rw [skipRound,if_neg (isEmpty_cons unread),consumed]
    by_cases marked : mark = [c]
    · have same : cursor.skip mark = after.skip mark := by
        refine eq_of_rest ((run_text _ _ _).trans (text.symm.trans (run_text _ _ _).symm)) ?_
        rw [skip_left,skip_left,unread,left]
        exact List.dropWhile_cons_of_pos (beq_iff_eq.mpr marked)
      rw [same]
      exact .later (met.trans (if_pos marked)) (ih after left)
    · rw [skip_stays (by rw [unread]; exact List.dropWhile_cons_of_neg (by simpa using marked))]
      exact .now (met.trans (if_neg marked))

theorem skip_rest (cursor : Cursor) : (cursor.skip [' ']).rest = cursor.rest.dropWhile (· == ' ') := by
  rw [skip_left]
  congr 1
  funext c
  simp [Bool.beq_eq_decide_eq,eq_comm]

def Meets (fragments : List Fragment) (cursor : Cursor) (turn : Round) : Sighting → Prop
  | .ending => ∃ after, turn = .ended (.ok fragments,after) ∧ after.text = cursor.text ∧ after.rest = []
  | .separator rest =>
    ∃ after, turn = .onward (fragments,after) ∧ after.text = cursor.text ∧ after.rest = rest
  | .fragment piece rest =>
    ∃ after, turn = .onward (fragments ++ [piece],after) ∧ after.text = cursor.text ∧ after.rest = rest
  | .halted halt => ∃ after, turn = .ended (.error (halt.failure cursor.text),after) ∧
    after.text = cursor.text ∧ after.rest = halt.rest

theorem taking_ok {read : Reader α} (onward : read.Onward) (make : α → Fragment) {value : α} {rest : Text}
    (text : here.text = cursor.text) (taken : read here.rest = .ok (value,rest)) :
    Meets fragments cursor (taking fragments make (here.run read onward)) (.fragment (make value) rest) := by
  rw [run_ok onward taken]
  exact ⟨_,rfl,text,rfl⟩

theorem taking_error {read : Reader α} (onward : read.Onward) (make : α → Fragment) {halt : Halt}
    (text : here.text = cursor.text) (halted : read here.rest = .error halt) :
    Meets fragments cursor (taking fragments make (here.run read onward)) (.halted halt) := by
  rw [run_error onward halted,text]
  exact ⟨_,rfl,text,rfl⟩

theorem taking_raw (boundary : Boundary) (make : Text → Fragment) (text : here.text = cursor.text) :
    Meets fragments cursor (taking fragments make (here.extract boundary))
      (.ofRaw make (Reading.extract boundary here.rest)) := by
  cases taken : Reading.extract boundary here.rest with
  | ok read => exact taking_ok _ make text taken
  | error halt => exact taking_error _ make text taken

theorem behindDots_meets {rest : Text} (text : here.text = cursor.text) (unread : here.rest = '.' :: rest) :
    Meets fragments cursor (behindDots fragments here.consume) (.descent rest) := by
  obtain ⟨after,consumed,same,left⟩ := consume_cons unread
  rw [consumed,behindDots,Sighting.descent,← left]
  have text : after.text = cursor.text := same.trans text
  cases taken : Reading.rejectNext [['.']] after.rest with
  | ok read => exact taking_ok _ (fun _ => Fragment.descent) text taken
  | error halt => exact taking_error _ (fun _ => Fragment.descent) text taken

theorem behindDot_second {rest : Text} (text : here.text = cursor.text)
    (unread : here.rest = '.' :: '.' :: rest) :
    Meets fragments cursor (behindDot fragments here.consume) (.descent rest) := by
  obtain ⟨after,consumed,same,left⟩ := consume_cons unread
  rw [consumed,behindDot,if_neg (isEmpty_cons left),peek_cons left]
  exact behindDots_meets (same.trans text) left

theorem behindDot_single {rest : Text} (text : here.text = cursor.text) (unread : here.rest = '.' :: rest)
    (single : rest.head? ≠ some '.') :
    Meets fragments cursor (behindDot fragments here.consume) (.separator rest) := by
  obtain ⟨after,consumed,same,left⟩ := consume_cons unread
  rw [consumed,behindDot]
  cases rest with
  | nil =>
    rw [if_pos (isEmpty_nil left)]
    exact ⟨_,rfl,same.trans text,left⟩
  | cons c rest =>
    have other : c ≠ '.' := by simpa using single
    rw [if_neg (isEmpty_cons left),peek_cons left]
    simp only [if_neg other]
    exact ⟨_,rfl,same.trans text,left⟩

theorem round_meets (fragments : List Fragment) (cursor : Cursor) :
    Meets fragments cursor (round (fragments,cursor)) (Sighting.of cursor.rest) := by
  have text : (cursor.skip [' ']).text = cursor.text := run_text _ _ _
  rw [round,Sighting.of,← skip_rest]
  generalize cursor.skip [' '] = here at text
  split
  · rename_i unread
    rw [roundFrom,if_pos (isEmpty_nil unread)]
    exact ⟨_,rfl,text,unread⟩
  · rename_i unread
    rw [roundFrom,if_neg (isEmpty_cons unread),peek_cons unread]
    exact taking_ok _ (fun c => ⟨[c],false⟩) text (by rw [unread]; rfl)
  · rename_i unread
    rw [roundFrom,if_neg (isEmpty_cons unread),peek_cons unread]
    exact behindDot_second text unread
  · rename_i rest single unread
    rw [roundFrom,if_neg (isEmpty_cons unread),peek_cons unread]
    refine behindDot_single text unread ?_
    intro first
    obtain ⟨later,rfl⟩ : ∃ later, rest = '.' :: later := by
      cases rest with
      | nil => cases first
      | cons c later => cases first; exact ⟨later,rfl⟩
    exact single later rfl
  · rename_i unread
    rw [roundFrom,if_neg (isEmpty_cons unread),peek_cons unread,← unread]
    exact taking_raw _ _ text
  · rename_i c rest root _ dot bracket unread
    have root : c ≠ '$' := root
    have dot : c ≠ '.' := dot
    have bracket : c ≠ '[' := bracket
    rw [roundFrom,if_neg (isEmpty_cons unread),peek_cons unread,← unread]
    simp only [if_neg root,if_neg dot,if_neg bracket]
    exact taking_raw _ _ text

theorem round_met {sighting : Sighting} (fragments : List Fragment) (met : Sighting.of cursor.rest = sighting) :
    Meets fragments cursor (round (fragments,cursor)) sighting := by
  rw [← met]
  exact round_meets fragments cursor

theorem Meets.ended {result : Except Failure (List Fragment) × Cursor} {sighting : Sighting}
    (meets : Meets fragments cursor (.ended result) sighting) :
    sighting = .ending ∨ ∃ halt, sighting = .halted halt := by
  cases sighting with
  | ending => exact .inl rfl
  | halted halt => exact .inr ⟨halt,rfl⟩
  | separator rest =>
    obtain ⟨_,turned,_⟩ := meets
    cases turned
  | fragment piece rest =>
    obtain ⟨_,turned,_⟩ := meets
    cases turned

theorem Meets.onward {later : List Fragment} {sighting : Sighting}
    (meets : Meets fragments cursor (.onward (later,after)) sighting) : after.text = cursor.text ∧
      (sighting = .separator after.rest ∧ later = fragments ∨
        ∃ piece, sighting = .fragment piece after.rest ∧ later = fragments ++ [piece]) := by
  cases sighting with
  | ending =>
    obtain ⟨_,turned,_⟩ := meets
    cases turned
  | separator rest =>
    obtain ⟨_,turned,text,rfl⟩ := meets
    cases turned
    exact ⟨text,.inl ⟨rfl,rfl⟩⟩
  | fragment piece rest =>
    obtain ⟨_,turned,text,rfl⟩ := meets
    cases turned
    exact ⟨text,.inr ⟨piece,rfl,rfl⟩⟩
  | halted halt =>
    obtain ⟨_,turned,_⟩ := meets
    cases turned

theorem round_onward {later : List Fragment} (went : round (fragments,cursor) = .onward (later,after)) :
    after.text = cursor.text ∧ cursor.index < after.index := by
  have meets := round_meets fragments cursor
  rw [went] at meets
  obtain ⟨text,turned⟩ := meets.onward
  have ahead : (Sighting.of cursor.rest).rest? = some after.rest := by
    rcases turned with ⟨met,_⟩ | ⟨_,met,_⟩ <;> rw [met] <;> rfl
  have shorter := Sighting.of_shorter ahead
  have bound := cursor.unread.length_le
  refine ⟨text,?_⟩
  rw [index,index,text]
  omega

theorem split_later {found : List Fragment} (text : after.text = cursor.text)
    (taken : Scan.split cursor.rest = (Scan.split after.rest).map fun later => (found ++ later.1,later.2)) :
    cursor.split = (after.split.1.map (found ++ ·),after.split.2) := by
  cases later : Scan.split after.rest with
  | ok result =>
    rw [later] at taken
    have behind : after.split = (.ok result.1,_) := run_ok Scan.split_onward later
    rw [behind]
    exact run_ok_at _ taken text rfl
  | error halt =>
    rw [later] at taken
    have behind : after.split = (.error (halt.failure after.text),_) := run_error Scan.split_onward later
    rw [behind,text]
    exact run_error_at _ taken text rfl

theorem ends_later {found : List Fragment} (turned : round (fragments,cursor) = .onward (fragments ++ found,after))
    (text : after.text = cursor.text)
    (taken : Scan.split cursor.rest = (Scan.split after.rest).map fun later => (found ++ later.1,later.2))
    (ends : Ends round (fragments ++ found,after) (after.split.1.map (fragments ++ found ++ ·),after.split.2)) :
    Ends round (fragments,cursor) (cursor.split.1.map (fragments ++ ·),cursor.split.2) := by
  rw [split_later text taken]
  refine .later turned ?_
  cases outcome : after.split.1 <;> simpa [outcome,Except.map] using ends

theorem split_ends (fragments : List Fragment) (cursor : Cursor) :
    Ends round (fragments,cursor) (cursor.split.1.map (fragments ++ ·),cursor.split.2) := by
  generalize unread : cursor.rest = text
  induction text using Scan.sighting_induction generalizing fragments cursor with
  | ending text met =>
    subst unread
    obtain ⟨after,turned,text,left⟩ := round_met fragments met
    have taken : Scan.split cursor.rest = .ok ([],[]) := by
      rw [Scan.split,Scan.of_ending met]
      rfl
    rw [show cursor.split = (.ok [],after) from run_ok_at _ taken text left]
    refine .now (turned.trans ?_)
    simp [Except.map]
  | separator text rest met ih =>
    subst unread
    obtain ⟨after,turned,text,left⟩ := round_met fragments met
    have taken : Scan.split cursor.rest =
        (Scan.split after.rest).map fun later => ([] ++ later.1,later.2) := by
      rw [Scan.split,Scan.split,Scan.of_separator met,left]
      cases (Scan.of rest).halt <;> rfl
    have onward : round (fragments,cursor) = .onward (fragments ++ [],after) := by
      rw [turned,List.append_nil]
    exact ends_later onward text taken (ih _ after left)
  | fragment text piece rest met ih =>
    subst unread
    obtain ⟨after,turned,text,left⟩ := round_met fragments met
    have taken : Scan.split cursor.rest =
        (Scan.split after.rest).map fun later => ([piece] ++ later.1,later.2) := by
      rw [Mode.split_fragment met,left]
      rfl
    exact ends_later turned text taken (ih _ after left)
  | halted text halt met =>
    subst unread
    obtain ⟨after,turned,text,left⟩ := round_met fragments met
    have halted : Scan.split cursor.rest = .error halt := by
      rw [Scan.split,Scan.of_halted met]
    rw [show cursor.split = (.error (halt.failure cursor.text),after) from run_error_at _ halted text left]
    exact .now turned

theorem split_ends_start (path : Text) : Ends round ([],start path) (start path).split := by
  have ends := split_ends [] (start path)
  cases outcome : (start path).split with
  | mk found last => cases found <;> simpa [outcome,Except.map] using ends

end PathExpr.Cursor
