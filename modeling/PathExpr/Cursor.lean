import PathExpr.Failure
import PathExpr.Reading

-- A position in a text, kept as the tail that is still unread. It can be moved
-- onward only, by readers, and a reader that stops short moves it too.
namespace PathExpr

structure Cursor where
  text : Text
  rest : Text
  unread : rest <:+ text

-- A halt seen from the text it happened in. Indexes are measured from the front,
-- so the unread tail alone decides them.
def Halt.failure (text : Text) : Halt → Failure
  | exhausted => .endOfInput text.length
  | missing expected => .unusable text (.missing expected)
  | unclosedGroup => .unusable text .unclosedGroup
  | unexpected char after =>
    .unusable text (.unexpected char (text.length - (char :: after).length))

namespace Cursor

def start (text : Text) : Cursor := ⟨text,text,List.suffix_refl text⟩

def index (cursor : Cursor) : Nat := cursor.text.length - cursor.rest.length

def isEmpty (cursor : Cursor) : Bool := cursor.rest.isEmpty

def moveTo (cursor : Cursor) (rest : Text) (onward : rest <:+ cursor.rest) : Cursor :=
  ⟨cursor.text,rest,onward.trans cursor.unread⟩

def run {α : Type} (cursor : Cursor) (read : Reader α) (onward : read.Onward) :
    Except Failure α × Cursor :=
  match taken : read cursor.rest with
  | .ok (value,rest) => (.ok value,cursor.moveTo rest (onward.value taken))
  | .error halt => (.error (halt.failure cursor.text),cursor.moveTo halt.rest (onward.halt taken))

def consume (cursor : Cursor) : Except Failure Char × Cursor :=
  cursor.run Reading.next Reading.next_onward

def peek (cursor : Cursor) : Except Failure Char := cursor.consume.1

def extract (cursor : Cursor) (boundary : Boundary) : Except Failure Text × Cursor :=
  cursor.run (Reading.extract boundary) (Reading.extract_onward boundary)

def group (cursor : Cursor) : Except Failure Text × Cursor :=
  cursor.run Reading.group Reading.group_onward

def rejectNext (cursor : Cursor) (refused : List Text) : Except Failure Unit × Cursor :=
  cursor.run (Reading.rejectNext refused) (Reading.rejectNext_onward refused)

def skip (cursor : Cursor) (mark : Text) : Cursor :=
  (cursor.run (Reading.skip mark) (Reading.skip_onward mark)).2

def summary (cursor : Cursor) : Text :=
  "Cursor(index=".toList ++ Text.ofNat cursor.index ++ ", length=".toList ++
    Text.ofNat cursor.text.length ++ [')']

theorem run_text {α : Type} (cursor : Cursor) (read : Reader α) (onward : read.Onward) :
    (cursor.run read onward).2.text = cursor.text := by
  unfold run; split <;> rfl

theorem run_suffix {α : Type} (cursor : Cursor) (read : Reader α) (onward : read.Onward) :
    (cursor.run read onward).2.rest <:+ cursor.rest := by
  unfold run
  split
  · rename_i taken; exact onward.value taken
  · rename_i taken; exact onward.halt taken

theorem run_outcome {α : Type} (cursor : Cursor) (read : Reader α) (onward : read.Onward) :
    (cursor.run read onward).1 =
      ((read cursor.rest).map Prod.fst).mapError (Halt.failure cursor.text) := by
  unfold run
  split
  · rename_i taken; simp only [taken]; rfl
  · rename_i taken; simp only [taken]; rfl

theorem index_le_length (cursor : Cursor) : cursor.index ≤ cursor.text.length :=
  Nat.sub_le _ _

end Cursor
end PathExpr
