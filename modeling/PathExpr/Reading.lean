import PathExpr.Text

-- Readers take what is unread and give a value with what they leave. They know
-- no positions: where a reader stands is what is left in front of it.
namespace PathExpr

inductive Halt where
  | exhausted
  | missing (expected : Text)
  | unclosedGroup
  | unexpected (char : Char) (after : Text)
deriving DecidableEq

def Halt.rest : Halt → Text
  | .unexpected char after => char :: after
  | _ => []

abbrev Reader (α : Type) := Text → Except Halt (α × Text)

-- A reader only moves onward: what it leaves is a tail of what it was given.
structure Reader.Onward {α : Type} (read : Reader α) : Prop where
  value : ∀ {text value rest}, read text = .ok (value,rest) → rest <:+ text
  halt : ∀ {text halt}, read text = .error halt → halt.rest <:+ text

-- Where an extract ends: in front of a stop, or after it. A stop that is not a
-- single character is never met, but the first one is what a report asks for.
inductive Boundary where
  | before (stops : List Text)
  | through (stop : Text) (others : List Text)

namespace Boundary

def stops : Boundary → List Text
  | before stops => stops
  | through stop others => stop :: others

def isStop (boundary : Boundary) (c : Char) : Bool := boundary.stops.contains [c]

end Boundary

namespace Reading

def next : Reader Char
  | [] => .error .exhausted
  | c :: rest => .ok (c,rest)

-- Takes its first character, whatever it is, and copies on through the first
-- `)`. Nesting is not counted.
def group : Reader Text
  | [] => .error .exhausted
  | opening :: rest =>
    match rest.dropWhile (· != ')') with
    | [] => .error .unclosedGroup
    | closing :: after => .ok (opening :: (rest.takeWhile (· != ')') ++ [closing]),after)

theorem group_halts {text : Text} {halt : Halt} (stopped : group text = .error halt) :
    halt = .exhausted ∧ text = [] ∨ halt = .unclosedGroup ∧ text ≠ [] := by
  unfold group at stopped
  split at stopped
  · cases stopped; exact .inl ⟨rfl,rfl⟩
  · split at stopped
    · cases stopped; exact .inr ⟨rfl,List.cons_ne_nil _ _⟩
    · cases stopped

theorem group_suffix {text content rest : Text} (taken : group text = .ok (content,rest)) :
    rest <:+ text := by
  unfold group at taken
  split at taken
  · cases taken
  · rename_i opening text
    split at taken
    · cases taken
    · rename_i closing after found
      cases taken
      have tail := List.dropWhile_suffix (l:=text) (· != ')')
      rw [found] at tail
      exact (List.suffix_cons _ _).trans (tail.trans (List.suffix_cons _ _))

theorem group_shorter {text content rest : Text} (taken : group text = .ok (content,rest)) :
    rest.length < text.length := by
  unfold group at taken
  split at taken
  · cases taken
  · rename_i opening text
    split at taken
    · cases taken
    · rename_i closing after found
      cases taken
      have bound := (List.dropWhile_suffix (l:=text) (· != ')')).length_le
      rw [found,List.length_cons] at bound
      simp only [List.length_cons]
      omega

def prepend (content : Text) : Except Halt (Text × Text) → Except Halt (Text × Text)
  | .ok (later,rest) => .ok (content ++ later,rest)
  | .error halt => .error halt

theorem prepend_ok {front read rest : Text} {later : Except Halt (Text × Text)}
    (taken : prepend front later = .ok (read,rest)) :
    ∃ tail, later = .ok (tail,rest) ∧ read = front ++ tail := by
  unfold prepend at taken
  split at taken
  · cases taken; exact ⟨_,rfl,rfl⟩
  · cases taken

theorem prepend_error {front : Text} {later : Except Halt (Text × Text)} {halt : Halt}
    (stopped : prepend front later = .error halt) : later = .error halt := by
  unfold prepend at stopped
  split at stopped
  · cases stopped
  · cases stopped; rfl

-- Copies up to the first unescaped stop, or to the end. A group is copied whole,
-- a backslash makes the next character literal and is itself never kept.
def content (isStop : Char → Bool) (escaped : Bool) (text : Text) : Except Halt (Text × Text) :=
  match text with
  | [] => .ok ([],[])
  | c :: rest =>
    if !escaped && isStop c then .ok ([],c :: rest)
    else if !escaped && c = '(' then
      match _ : group (c :: rest) with
      | .error halt => .error halt
      | .ok (copied,after) => prepend copied (content isStop false after)
    else if c = '\\' then content isStop (!escaped) rest
    else prepend [c] (content isStop false rest)
termination_by text.length
decreasing_by
  · exact group_shorter ‹_›
  · exact Nat.lt_succ_self _
  · exact Nat.lt_succ_self _

theorem content_suffix {isStop : Char → Bool} {escaped : Bool} {text copied rest : Text}
    (taken : content isStop escaped text = .ok (copied,rest)) : rest <:+ text := by
  fun_induction content isStop escaped text generalizing copied rest with
  | case1 => cases taken; exact List.suffix_refl _
  | case2 => cases taken; exact List.suffix_refl _
  | case3 => cases taken
  | case4 _ _ _ _ _ _ _ opened ih =>
    obtain ⟨_,found,_⟩ := prepend_ok taken
    exact (ih found).trans (group_suffix opened)
  | case5 _ _ _ _ ih => exact (ih taken).trans (List.suffix_cons _ _)
  | case6 _ _ _ _ _ _ ih =>
    obtain ⟨_,found,_⟩ := prepend_ok taken
    exact (ih found).trans (List.suffix_cons _ _)

theorem content_halts {isStop : Char → Bool} {escaped : Bool} {text : Text} {halt : Halt}
    (stopped : content isStop escaped text = .error halt) : halt = .unclosedGroup := by
  fun_induction content isStop escaped text with
  | case1 => cases stopped
  | case2 => cases stopped
  | case3 _ _ _ _ _ _ opened =>
    cases stopped
    rcases group_halts opened with ⟨_,empty⟩ | ⟨unclosed,_⟩
    · cases empty
    · exact unclosed
  | case4 _ _ _ _ _ _ _ _ ih => exact ih (prepend_error stopped)
  | case5 _ _ _ _ ih => exact ih stopped
  | case6 _ _ _ _ _ _ ih => exact ih (prepend_error stopped)

def extract (boundary : Boundary) : Reader Text := fun text =>
  match content boundary.isStop false text with
  | .error halt => .error halt
  | .ok (copied,rest) =>
    match boundary,rest with
    | .before _,rest => .ok (copied,rest)
    | .through expected _,[] => .error (.missing expected)
    | .through _ _,stop :: after => .ok (copied ++ [stop],after)

theorem content_shorter {isStop : Char → Bool} {c : Char} {tail copied rest : Text}
    (free : isStop c = false) (taken : content isStop false (c :: tail) = .ok (copied,rest)) :
    rest.length < (c :: tail).length := by
  rw [content.eq_2] at taken
  simp only [free,Bool.and_false,Bool.false_eq_true,if_false,Bool.not_false,Bool.true_and,
    decide_eq_true_eq] at taken
  split at taken
  · split at taken
    · cases taken
    · rename_i opened
      obtain ⟨_,found,_⟩ := prepend_ok taken
      exact Nat.lt_of_le_of_lt (content_suffix found).length_le (group_shorter opened)
  · split at taken
    · exact Nat.lt_succ_of_le (content_suffix taken).length_le
    · obtain ⟨_,found,_⟩ := prepend_ok taken
      exact Nat.lt_succ_of_le (content_suffix found).length_le

theorem extract_shorter {boundary : Boundary} {c : Char} {tail raw rest : Text}
    (free : boundary.isStop c = false) (taken : extract boundary (c :: tail) = .ok (raw,rest)) :
    rest.length < (c :: tail).length := by
  unfold extract at taken
  split at taken
  · cases taken
  · rename_i found
    have shorter := content_shorter free found
    split at taken
    · cases taken; exact shorter
    · cases taken
    · cases taken; exact Nat.lt_of_succ_lt shorter

def rejectNext (refused : List Text) : Reader Unit
  | [] => .ok ((),[])
  | c :: rest => if refused.contains [c] then .error (.unexpected c rest) else .ok ((),c :: rest)

def skip (mark : Text) : Reader Unit := fun text =>
  .ok ((),text.dropWhile fun c => mark == [c])

theorem next_onward : Reader.Onward next where
  value {text _ _} taken := by
    cases text with
    | nil => cases taken
    | cons => cases taken; exact List.suffix_cons _ _
  halt {text _} stopped := by
    cases text with
    | nil => cases stopped; exact List.nil_suffix
    | cons => cases stopped

theorem group_onward : Reader.Onward group where
  value := group_suffix
  halt stopped := by
    rcases group_halts stopped with ⟨rfl,_⟩ | ⟨rfl,_⟩ <;> exact List.nil_suffix

theorem extract_onward (boundary : Boundary) : Reader.Onward (extract boundary) where
  value {text _ _} taken := by
    unfold extract at taken
    split at taken
    · cases taken
    · rename_i found
      have tail := content_suffix found
      split at taken
      · cases taken; exact tail
      · cases taken
      · cases taken; exact (List.suffix_cons _ _).trans tail
  halt {text _} stopped := by
    unfold extract at stopped
    split at stopped
    · rename_i found
      cases stopped
      rw [content_halts found]
      exact List.nil_suffix
    · split at stopped
      · cases stopped
      · cases stopped; exact List.nil_suffix
      · cases stopped

theorem rejectNext_onward (refused : List Text) : Reader.Onward (rejectNext refused) where
  value {text _ _} taken := by
    cases text with
    | nil => cases taken; exact List.suffix_refl _
    | cons c rest =>
      simp only [rejectNext] at taken
      split at taken
      · cases taken
      · cases taken; exact List.suffix_refl _
  halt {text _} stopped := by
    cases text with
    | nil => cases stopped
    | cons c rest =>
      simp only [rejectNext] at stopped
      split at stopped
      · cases stopped; exact List.suffix_refl _
      · cases stopped

theorem skip_onward (mark : Text) : Reader.Onward (skip mark) where
  value taken := by cases taken; exact List.dropWhile_suffix _
  halt stopped := by cases stopped

end Reading
end PathExpr
