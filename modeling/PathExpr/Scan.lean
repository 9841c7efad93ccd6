import PathExpr.Cursor
import PathExpr.Fragment
import PathExpr.Sugar

-- A scan cuts a path into fragments in one go from the front. What it meets is
-- decided by the unread text alone, and everything it meets is shorter than that.
namespace PathExpr

inductive Sighting where
  | ending
  | separator (rest : Text)
  | fragment (fragment : Fragment) (rest : Text)
  | halted (halt : Halt)
deriving DecidableEq

namespace Sighting

def ofRaw (make : Text → Fragment) : Except Halt (Text × Text) → Sighting
  | .ok (raw,rest) => .fragment (make raw) rest
  | .error halt => .halted halt

def bracketed (text : Text) : Sighting :=
  ofRaw (fun raw => ⟨Sugar.cleanBracketed raw,true⟩) (Reading.extract (.through [']'] []) text)

def plain (text : Text) : Sighting :=
  ofRaw (fun raw => ⟨Sugar.clean raw,false⟩) (Reading.extract (.before [['['],['.']]) text)

def descent (rest : Text) : Sighting :=
  match Reading.rejectNext [['.']] rest with
  | .ok ((),rest) => .fragment .descent rest
  | .error halt => .halted halt

def of (text : Text) : Sighting :=
  match text.dropWhile (· == ' ') with
  | [] => .ending
  | '$' :: rest => .fragment .root rest
  | '.' :: '.' :: rest => descent rest
  | '.' :: rest => .separator rest
  | '[' :: rest => bracketed ('[' :: rest)
  | c :: rest => plain (c :: rest)

def rest? : Sighting → Option Text
  | separator rest => some rest
  | fragment _ rest => some rest
  | _ => none

theorem ofRaw_rest {make : Text → Fragment} {taken : Except Halt (Text × Text)} {rest : Text}
    (ahead : (ofRaw make taken).rest? = some rest) : ∃ raw, taken = .ok (raw,rest) := by
  cases taken with
  | error => cases ahead
  | ok read => cases ahead; exact ⟨_,rfl⟩

theorem descent_rest {text rest : Text} (ahead : (descent text).rest? = some rest) :
    rest = text := by
  unfold descent at ahead
  split at ahead
  · rename_i found
    cases ahead
    cases text with
    | nil => cases found; rfl
    | cons c tail =>
      simp only [Reading.rejectNext] at found
      split at found
      · cases found
      · cases found; rfl
  · cases ahead

theorem of_shorter {text rest : Text} (ahead : (of text).rest? = some rest) :
    rest.length < text.length := by
  have bound := (List.dropWhile_suffix (l:=text) (· == ' ')).length_le
  refine Nat.lt_of_lt_of_le ?_ bound
  unfold of at ahead
  split at ahead
  · cases ahead
  · rename_i found; cases ahead; rw [found]; exact Nat.lt_succ_self _
  · rename_i found
    rw [found,descent_rest ahead]
    exact Nat.lt_succ_of_lt (Nat.lt_succ_self _)
  · rename_i found; cases ahead; rw [found]; exact Nat.lt_succ_self _
  · rename_i found
    obtain ⟨_,read⟩ := ofRaw_rest ahead
    rw [found]
    exact Reading.extract_shorter (by decide) read
  · rename_i notDot notBracket found
    obtain ⟨_,read⟩ := ofRaw_rest ahead
    rw [found]
    refine Reading.extract_shorter ?_ read
    simp_all [Boundary.isStop,Boundary.stops]

theorem ofRaw_halted {make : Text → Fragment} {taken : Except Halt (Text × Text)} {halt : Halt}
    (stopped : ofRaw make taken = .halted halt) : taken = .error halt := by
  cases taken with
  | error => cases stopped; rfl
  | ok => cases stopped

theorem descent_halted {text : Text} {halt : Halt} (stopped : descent text = .halted halt) :
    halt.rest = text := by
  unfold descent at stopped
  split at stopped
  · cases stopped
  · rename_i refused
    cases stopped
    cases text with
    | nil => cases refused
    | cons c tail =>
      simp only [Reading.rejectNext] at refused
      split at refused
      · cases refused; rfl
      · cases refused

theorem of_suffix {text rest : Text} (ahead : (of text).rest? = some rest) : rest <:+ text := by
  refine List.IsSuffix.trans ?_ (List.dropWhile_suffix (l:=text) (· == ' '))
  unfold of at ahead
  split at ahead
  · cases ahead
  · rename_i found; cases ahead; rw [found]; exact List.suffix_cons _ _
  · rename_i found
    rw [found,descent_rest ahead]
    exact (List.suffix_cons _ _).trans (List.suffix_cons _ _)
  · rename_i found; cases ahead; rw [found]; exact List.suffix_cons _ _
  · rename_i found
    obtain ⟨_,read⟩ := ofRaw_rest ahead
    rw [found]
    exact (Reading.extract_onward _).value read
  · rename_i found
    obtain ⟨_,read⟩ := ofRaw_rest ahead
    rw [found]
    exact (Reading.extract_onward _).value read

theorem of_halted {text : Text} {halt : Halt} (stopped : of text = .halted halt) :
    halt.rest <:+ text := by
  refine List.IsSuffix.trans ?_ (List.dropWhile_suffix (l:=text) (· == ' '))
  unfold of at stopped
  split at stopped
  · cases stopped
  · cases stopped
  · rename_i found
    rw [found,descent_halted stopped]
    exact (List.suffix_cons _ _).trans (List.suffix_cons _ _)
  · cases stopped
  · rename_i found
    rw [found]
    exact (Reading.extract_onward _).halt (ofRaw_halted stopped)
  · rename_i found
    rw [found]
    exact (Reading.extract_onward _).halt (ofRaw_halted stopped)

end Sighting

structure Mark where
  fragment : Fragment
  rest : Text
deriving DecidableEq

structure Scan where
  marks : List Mark
  halt : Option Halt
deriving DecidableEq

namespace Scan

def onward (mark : Mark) (later : Scan) : Scan := ⟨mark :: later.marks,later.halt⟩

def finished : Scan := ⟨[],none⟩

-- The lengths are compared for the sake of the recursion alone. What a sighting
-- leaves is always shorter, so that the scan goes on wherever it can.
def of (text : Text) : Scan :=
  match Sighting.of text with
  | .ending => finished
  | .separator rest => if rest.length < text.length then of rest else finished
  | .fragment fragment rest =>
    onward ⟨fragment,rest⟩ (if rest.length < text.length then of rest else finished)
  | .halted halt => ⟨[],some halt⟩
termination_by text.length

theorem of_ending {text : Text} (met : Sighting.of text = .ending) : of text = finished := by
  rw [of,met]

theorem of_separator {text rest : Text} (met : Sighting.of text = .separator rest) :
    of text = of rest := by
  have shorter := Sighting.of_shorter (by rw [met]; rfl)
  rw [of,met]
  exact if_pos shorter

theorem of_fragment {text rest : Text} {fragment : Fragment}
    (met : Sighting.of text = .fragment fragment rest) :
    of text = onward ⟨fragment,rest⟩ (of rest) := by
  have shorter := Sighting.of_shorter (by rw [met]; rfl)
  rw [of,met]
  exact congrArg (onward ⟨fragment,rest⟩) (if_pos shorter)

theorem of_halted {text : Text} {halt : Halt} (met : Sighting.of text = .halted halt) :
    of text = ⟨[],some halt⟩ := by
  rw [of,met]

theorem sighting_induction {holds : Text → Prop}
    (ending : ∀ text, Sighting.of text = .ending → holds text)
    (separator : ∀ text rest, Sighting.of text = .separator rest → holds rest → holds text)
    (fragment : ∀ text fragment rest, Sighting.of text = .fragment fragment rest →
      holds rest → holds text)
    (halted : ∀ text halt, Sighting.of text = .halted halt → holds text) (text : Text) :
    holds text := by
  cases met : Sighting.of text with
  | ending => exact ending text met
  | separator rest =>
    have shorter := Sighting.of_shorter (by rw [met]; rfl)
    exact separator text rest met (sighting_induction ending separator fragment halted rest)
  | fragment piece rest =>
    have shorter := Sighting.of_shorter (by rw [met]; rfl)
    exact fragment text piece rest met (sighting_induction ending separator fragment halted rest)
  | halted halt => exact halted text halt met
termination_by text.length
decreasing_by
  · exact shorter
  · exact shorter

def fragments (scan : Scan) : List Fragment := scan.marks.map Mark.fragment

def split : Reader (List Fragment) := fun text =>
  let scan := of text
  match scan.halt with
  | none => .ok (scan.fragments,[])
  | some halt => .error halt

theorem of_halt {text : Text} {halt : Halt} (stopped : (of text).halt = some halt) :
    halt.rest <:+ text := by
  induction text using sighting_induction with
  | ending text met => rw [of_ending met] at stopped; cases stopped
  | separator text rest met ih =>
    rw [of_separator met] at stopped
    exact (ih stopped).trans (Sighting.of_suffix (by rw [met]; rfl))
  | fragment text _ rest met ih =>
    rw [of_fragment met] at stopped
    exact (ih stopped).trans (Sighting.of_suffix (by rw [met]; rfl))
  | halted text _ met =>
    rw [of_halted met] at stopped
    cases stopped
    exact Sighting.of_halted met

theorem split_onward : Reader.Onward split where
  value {text _ _} taken := by
    simp only [split] at taken
    split at taken
    · cases taken; exact List.nil_suffix
    · cases taken
  halt {text _} stopped := by
    simp only [split] at stopped
    split at stopped
    · cases stopped
    · rename_i found; cases stopped; exact of_halt found

end Scan

def Cursor.split (cursor : Cursor) : Except Failure (List Fragment) × Cursor :=
  cursor.run Scan.split Scan.split_onward

end PathExpr
