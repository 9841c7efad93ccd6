import PathExpr.Cursor.Session
import PathExpr.Proofs.Rounds

-- The scan as loops over a text and an index into it: a character is looked up at the index,
-- which moves by one with each that is consumed.
namespace PathExpr

structure Buffer where
  text : Text
  index : Nat

def Buffer.left (here : Buffer) : Nat := here.text.length - here.index

-- A failure keeps the index that was reached.
abbrev Scanner (α : Type) := ExceptT Failure (StateT Buffer Option) α

namespace Scanner

variable {σ α β : Type}

def isEmpty : Scanner Bool := do
  let here ← get
  return here.index == here.text.length

def peek : Scanner Char := do
  let here ← get
  match here.text[here.index]? with
  | some c => return c
  | none => throw (.endOfInput here.index)

def consume : Scanner Char := do
  let c ← peek
  modify fun here => ⟨here.text,here.index + 1⟩
  return c

def refuse (fault : Fault) : Scanner α := do
  let here ← get
  throw (.unusable here.text fault)

-- A round that goes on without moving the index is not followed, and leaves no outcome.
def loop (round : σ → Scanner (Turn σ α)) (state : σ) : Scanner α := fun here =>
  match round state here with
  | some (.ok (.ended result),after) => some (.ok result,after)
  | some (.ok (.onward next),after) => if after.left < here.left then loop round next after else none
  | some (.error failure,after) => some (.error failure,after)
  | none => none
termination_by here => here.left

def skipRound (mark : Text) (_ : Unit) : Scanner (Turn Unit Unit) := do
  if ← isEmpty then return .ended ()
  if mark ≠ [← peek] then return .ended ()
  let _ ← consume
  return .onward ()

def skip (mark : Text) : Scanner Unit := loop (skipRound mark) ()

def groupRound (copied : Text) : Scanner (Turn Text Text) := do
  if ← isEmpty then refuse .unclosedGroup
  else
    let c ← consume
    return if c = ')' then .ended (copied ++ [c]) else .onward (copied ++ [c])

def group : Scanner Text := do
  let opening ← consume
  loop groupRound [opening]

def leaving (boundary : Boundary) (copied : Text) : Scanner Text :=
  match boundary with
  | .before _ => return copied
  | .through expected _ => do
    if ← isEmpty then refuse (.missing expected)
    else
      let stop ← consume
      return copied ++ [stop]

def extractRound (boundary : Boundary) : Text × Bool → Scanner (Turn (Text × Bool) Text)
  | (copied,escaped) => do
    if ← isEmpty then return .ended (← leaving boundary copied)
    let c ← peek
    if !escaped && boundary.isStop c then return .ended (← leaving boundary copied)
    if !escaped && c = '(' then
      let inner ← group
      return .onward (copied ++ inner,false)
    let c ← consume
    return .onward (if c = '\\' then copied else copied ++ [c],!escaped && c = '\\')

def extract (boundary : Boundary) : Scanner Text := loop (extractRound boundary) ([],false)

def rejectNext (refused : List Text) : Scanner Unit := do
  if ← isEmpty then return
  let c ← peek
  let here ← get
  if refused.contains [c] then refuse (.unexpected c here.index)

def behindDot (fragments : List Fragment) : Scanner (Turn (List Fragment) (List Fragment)) := do
  if ← isEmpty then return .onward fragments
  if (← peek) ≠ '.' then return .onward fragments
  let _ ← consume
  rejectNext [['.']]
  return .onward (fragments ++ [.descent])

def splitRound (fragments : List Fragment) : Scanner (Turn (List Fragment) (List Fragment)) := do
  if ← isEmpty then return .ended fragments
  skip [' ']
  if ← isEmpty then return .ended fragments
  let c ← peek
  if c = '$' then
    let root ← consume
    return .onward (fragments ++ [⟨[root],false⟩])
  if c = '.' then
    let _ ← consume
    behindDot fragments
  else if c = '[' then
    let raw ← extract (.through [']'] [])
    return .onward (fragments ++ [⟨Sugar.cleanBracketed raw,true⟩])
  else
    let raw ← extract (.before [['['],['.']])
    return .onward (fragments ++ [⟨Sugar.clean raw,false⟩])

def split : Scanner (List Fragment) := loop splitRound []

def answer (reply : α → Cursor.Reply) (scan : Scanner α) : StateT Buffer Option Cursor.Reply := do
  match ← scan.run with
  | .ok value => return reply value
  | .error failure => return .failed failure

def perform : Cursor.Command → StateT Buffer Option Cursor.Reply
  | .split => answer .fragments split
  | .extract boundary => answer .text (extract boundary)
  | .group => answer .text group
  | .rejectNext refused => answer (fun _ => .passed) (rejectNext refused)
  | .skip mark => answer .index do
    skip mark
    return (← get).index
  | .index => answer .index do return (← get).index

def session (commands : List Cursor.Command) : StateT Buffer Option (List Cursor.Reply) :=
  commands.mapM perform

theorem run_pure (value : α) (here : Buffer) : (pure value : Scanner α) here = some (.ok value,here) := rfl

theorem run_get (here : Buffer) : (get : Scanner Buffer) here = some (.ok here,here) := rfl

theorem run_bind (scan : Scanner α) (next : α → Scanner β) (here : Buffer) :
    (scan >>= next) here = match scan here with
      | some (.ok value,after) => next value after
      | some (.error failure,after) => some (.error failure,after)
      | none => none := by
  simp only [bind,ExceptT.bind,ExceptT.mk,StateT.bind]
  rcases scan here with _ | ⟨failure | value,after⟩ <;> rfl

end Scanner
end PathExpr
