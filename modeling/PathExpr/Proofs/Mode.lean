import PathExpr.Scan

-- The scan once more, as a flat machine: it takes one character at a time, and a
-- mode is all it remembers in between.
namespace PathExpr

inductive Piece where
  | root
  | descent
  | raw (bracketed : Bool) (text : Text)
deriving DecidableEq

namespace Piece

def text : Piece → Text
  | root => ['$']
  | descent => ['.','.']
  | raw _ text => text

def fragment : Piece → Fragment
  | root => .root
  | descent => .descent
  | raw false text => ⟨Sugar.clean text,false⟩
  | raw true text => ⟨Sugar.cleanBracketed text,true⟩

end Piece

inductive Mode where
  | top
  | dot
  | descent
  | inside (bracketed escaped : Bool) (raw : Text)
  | group (bracketed : Bool) (raw : Text)
deriving DecidableEq

namespace Mode

def enter (c : Char) : List Piece × Mode :=
  if c = ' ' then ([],top)
  else if c = '$' then ([.root],top)
  else if c = '.' then ([],dot)
  else if c = '[' then ([],inside true false ['['])
  else if c = '(' then ([],group false ['('])
  else if c = '\\' then ([],inside false true [])
  else ([],inside false false [c])

-- Only a third dot in a row is refused. A dot or a bracket behind a plain fragment
-- closes it and is then read as if nothing had been open.
def step : Mode → Char → Option (List Piece × Mode)
  | top,c => some (enter c)
  | dot,c => if c = '.' then some ([.descent],descent) else some (enter c)
  | descent,c => if c = '.' then none else some (enter c)
  | inside bracketed true raw,c =>
    some ([],inside bracketed false (if c = '\\' then raw else raw ++ [c]))
  | inside false false raw,c =>
    if c = '(' then some ([],group false (raw ++ [c]))
    else if c = '\\' then some ([],inside false true raw)
    else if c = '[' ∨ c = '.' then some (.raw false raw :: (enter c).1,(enter c).2)
    else some ([],inside false false (raw ++ [c]))
  | inside true false raw,c =>
    if c = '(' then some ([],group true (raw ++ [c]))
    else if c = '\\' then some ([],inside true true raw)
    else if c = ']' then some ([.raw true (raw ++ [c])],top)
    else some ([],inside true false (raw ++ [c]))
  | group bracketed raw,c =>
    some ([],if c = ')' then inside bracketed false (raw ++ [c]) else group bracketed (raw ++ [c]))

def finish : Mode → Except Halt (List Piece)
  | top | dot | descent => .ok []
  | inside false _ raw => .ok [.raw false raw]
  | inside true _ _ => .error (.missing [']'])
  | group _ _ => .error .unclosedGroup

def behind (pieces : List Piece) (later : Except Halt (List Piece)) : Except Halt (List Piece) :=
  later.map (pieces ++ ·)

@[simp] theorem behind_ok (pieces later : List Piece) : behind pieces (.ok later) = .ok (pieces ++ later) :=
  rfl

@[simp] theorem behind_error (pieces : List Piece) (halt : Halt) :
    behind pieces (.error halt) = .error halt := rfl

@[simp] theorem behind_nil (later : Except Halt (List Piece)) : behind [] later = later := by
  cases later <;> rfl

@[simp] theorem behind_behind (first second : List Piece) (later : Except Halt (List Piece)) :
    behind first (behind second later) = behind (first ++ second) later := by
  cases later <;> simp

theorem behind_accepted {first all : List Piece} {later : Except Halt (List Piece)}
    (joined : behind first later = .ok all) : ∃ others, later = .ok others ∧ all = first ++ others := by
  cases later with
  | error halt => cases joined
  | ok others => cases joined; exact ⟨others,rfl,rfl⟩

def run : Mode → Text → Except Halt (List Piece)
  | mode,[] => mode.finish
  | mode,c :: rest =>
    match mode.step c with
    | none => .error (.unexpected c rest)
    | some (pieces,next) => behind pieces (run next rest)

theorem run_cons {mode next : Mode} {c : Char} {pieces : List Piece} (rest : Text)
    (stepped : mode.step c = some (pieces,next)) :
    run mode (c :: rest) = behind pieces (run next rest) := by
  rw [run,stepped]

theorem run_silent {mode next : Mode} {c : Char} (rest : Text)
    (stepped : mode.step c = some ([],next)) : run mode (c :: rest) = run next rest := by
  rw [run_cons rest stepped,behind_nil]

theorem run_refused {mode : Mode} {c : Char} (rest : Text) (refused : mode.step c = none) :
    run mode (c :: rest) = .error (.unexpected c rest) := by
  rw [run,refused]

theorem step_refused {mode : Mode} {c : Char} :
    mode.step c = none ↔ mode = .descent ∧ c = '.' := by
  fun_cases step mode c <;> simp_all

theorem finish_halts {mode : Mode} {halt : Halt} (stopped : mode.finish = .error halt) :
    halt = .missing [']'] ∨ halt = .unclosedGroup := by
  cases mode with
  | top | dot | descent => cases stopped
  | inside bracketed =>
    cases bracketed with
    | false => cases stopped
    | true => cases stopped; exact .inl rfl
  | group => cases stopped; exact .inr rfl

-- Between fragments nothing is open, and nothing but the dots just read is remembered.
def Idle (mode : Mode) : Prop := mode = top ∨ mode = dot ∨ mode = descent

theorem finish_cases {mode : Mode} {pieces : List Piece} (finished : mode.finish = .ok pieces) :
    mode.Idle ∧ pieces = [] ∨ ∃ escaped raw, mode = inside false escaped raw ∧ pieces = [.raw false raw] := by
  cases mode with
  | top => cases finished; exact .inl ⟨.inl rfl,rfl⟩
  | dot => cases finished; exact .inl ⟨.inr (.inl rfl),rfl⟩
  | descent => cases finished; exact .inl ⟨.inr (.inr rfl),rfl⟩
  | inside bracketed escaped raw =>
    cases bracketed with
    | false => cases finished; exact .inr ⟨escaped,raw,rfl,rfl⟩
    | true => cases finished
  | group => cases finished

theorem finish_piece {mode : Mode} {pieces : List Piece} {piece : Piece} (finished : mode.finish = .ok pieces)
    (member : piece ∈ pieces) : ∃ escaped raw, mode = inside false escaped raw ∧ piece = .raw false raw := by
  rcases finish_cases finished with ⟨_,rfl⟩ | ⟨escaped,raw,rfl,rfl⟩
  · cases member
  · exact ⟨escaped,raw,rfl,List.mem_singleton.mp member⟩

theorem run_halts {mode : Mode} {text : Text} {halt : Halt} (stopped : run mode text = .error halt) :
    halt = .missing [']'] ∨ halt = .unclosedGroup ∨ ∃ rest, halt = .unexpected '.' rest := by
  induction text generalizing mode with
  | nil => exact (finish_halts stopped).imp_right .inl
  | cons c rest ih =>
    cases stepped : mode.step c with
    | none =>
      obtain ⟨rfl,rfl⟩ := step_refused.mp stepped
      rw [run_refused rest stepped] at stopped
      cases stopped
      exact .inr (.inr ⟨rest,rfl⟩)
    | some next =>
      rw [run_cons rest stepped] at stopped
      cases later : run next.2 rest with
      | ok pieces => rw [later] at stopped; cases stopped
      | error found => rw [later] at stopped; cases stopped; exact ih later

theorem run_congr {mode other : Mode} {c : Char} (rest : Text) (same : mode.step c = other.step c) :
    run mode (c :: rest) = run other (c :: rest) := by
  rw [run,run,same]

theorem run_group_text (bracketed : Bool) (raw text : Text) :
    run (group bracketed raw) text = match text.dropWhile (· != ')') with
      | [] => .error .unclosedGroup
      | closing :: after =>
        run (inside bracketed false (raw ++ (text.takeWhile (· != ')') ++ [closing]))) after := by
  induction text generalizing raw with
  | nil => rfl
  | cons c rest ih =>
    by_cases closes : c = ')'
    · subst c
      have closed : run (group bracketed raw) (')' :: rest) =
          run (inside bracketed false (raw ++ [')'])) rest := run_silent rest rfl
      simp [closed]
    · have copied : run (group bracketed raw) (c :: rest) = run (group bracketed (raw ++ [c])) rest :=
        run_silent rest (by simp [step,closes])
      rw [copied,ih]
      simp [closes]

theorem run_group (bracketed : Bool) (raw : Text) (opening : Char) (text : Text) :
    run (group bracketed (raw ++ [opening])) text =
      (Reading.group (opening :: text)).bind fun taken =>
        run (inside bracketed false (raw ++ taken.1)) taken.2 := by
  rw [run_group_text,Reading.group]
  cases text.dropWhile (· != ')') with
  | nil => rfl
  | cons closing after => simp [Except.bind]

def boundary (bracketed : Bool) : Boundary :=
  if bracketed then .through [']'] [] else .before [['['],['.']]

theorem isStop_plain (c : Char) : (boundary false).isStop c = true ↔ c = '[' ∨ c = '.' := by
  simp [boundary,Boundary.isStop,Boundary.stops]

theorem isStop_bracketed (c : Char) : (boundary true).isStop c = true ↔ c = ']' := by
  simp [boundary,Boundary.isStop,Boundary.stops]

-- What is made of an open fragment where its content ends: a plain one stops in
-- front of what is left, a bracketed one takes its bracket along.
def leave : Bool → Text → Text → Except Halt (List Piece)
  | false,raw,rest => behind [.raw false raw] (run top rest)
  | true,_,[] => .error (.missing [']'])
  | true,raw,closing :: rest => behind [.raw true (raw ++ [closing])] (run top rest)

theorem run_end (bracketed escaped : Bool) (raw : Text) :
    run (inside bracketed escaped raw) [] = leave bracketed raw [] := by
  cases bracketed <;> rfl

theorem step_stop {c : Char} (raw : Text) (stops : c = '[' ∨ c = '.') :
    step (inside false false raw) c = some (.raw false raw :: (enter c).1,(enter c).2) := by
  rcases stops with rfl | rfl <;> rfl

theorem run_stop {bracketed : Bool} {c : Char} (raw rest : Text)
    (stops : (boundary bracketed).isStop c = true) :
    run (inside bracketed false raw) (c :: rest) = leave bracketed raw (c :: rest) := by
  cases bracketed with
  | false =>
    have entered : run top (c :: rest) = behind (enter c).1 (run (enter c).2 rest) :=
      run_cons rest rfl
    rw [run_cons rest (step_stop raw ((isStop_plain c).mp stops)),leave,entered,behind_behind]
    rfl
  | true =>
    obtain rfl := (isStop_bracketed c).mp stops
    rw [run_cons rest rfl,leave]

theorem run_opening (bracketed : Bool) (raw rest : Text) :
    run (inside bracketed false raw) ('(' :: rest) = run (group bracketed (raw ++ ['('])) rest := by
  cases bracketed <;> exact run_silent rest rfl

theorem step_copied {bracketed escaped : Bool} {c : Char} (raw : Text)
    (free : (!escaped && (boundary bracketed).isStop c) = false)
    (closed : (!escaped && decide (c = '(')) = false) :
    step (inside bracketed escaped raw) c = some ([],if c = '\\' then
      inside bracketed (!escaped) raw else inside bracketed false (raw ++ [c])) := by
  cases escaped with
  | true => by_cases slash : c = '\\' <;> simp [step,slash]
  | false =>
    have closed : c ≠ '(' := by simpa using closed
    cases bracketed with
    | false =>
      have free : ¬(c = '[' ∨ c = '.') := by rw [← isStop_plain]; simpa using free
      by_cases slash : c = '\\' <;> simp [step,closed,slash,free]
    | true =>
      have free : c ≠ ']' := by rw [ne_eq,← isStop_bracketed]; simpa using free
      by_cases slash : c = '\\' <;> simp [step,closed,slash,free]

theorem run_copied {bracketed escaped : Bool} {c : Char} (raw rest : Text)
    (free : (!escaped && (boundary bracketed).isStop c) = false)
    (closed : (!escaped && decide (c = '(')) = false) :
    run (inside bracketed escaped raw) (c :: rest) =
      if c = '\\' then run (inside bracketed (!escaped) raw) rest
      else run (inside bracketed false (raw ++ [c])) rest := by
  rw [run_silent rest (step_copied raw free closed)]
  split <;> rfl

theorem prepend_bind {α : Type} (front : Text) (later : Except Halt (Text × Text))
    (next : Text × Text → Except Halt α) :
    (Reading.prepend front later).bind next = later.bind fun taken => next (front ++ taken.1,taken.2) := by
  cases later <;> rfl

theorem run_inside (bracketed escaped : Bool) (raw text : Text) :
    run (inside bracketed escaped raw) text =
      (Reading.content (boundary bracketed).isStop escaped text).bind fun taken =>
        leave bracketed (raw ++ taken.1) taken.2 := by
  fun_induction Reading.content (boundary bracketed).isStop escaped text generalizing raw with
  | case1 escaped => rw [run_end]; simp only [Except.bind,List.append_nil]
  | case2 escaped c rest stops =>
    obtain ⟨rfl,stops⟩ : escaped = false ∧ (boundary bracketed).isStop c = true := by simpa using stops
    rw [run_stop raw rest stops]
    simp only [Except.bind,List.append_nil]
  | case3 escaped c rest free opens halt halted =>
    obtain ⟨rfl,rfl⟩ : escaped = false ∧ c = '(' := by simpa using opens
    rw [run_opening,run_group,halted]
    rfl
  | case4 escaped c rest free opens copied after taken ih =>
    obtain ⟨rfl,rfl⟩ : escaped = false ∧ c = '(' := by simpa using opens
    rw [run_opening,run_group,taken,prepend_bind]
    simp only [Except.bind] at ih ⊢
    rw [ih]
    simp only [List.append_assoc]
  | case5 escaped rest free closed ih =>
    rw [run_copied raw rest (by simpa using free) (by simp),if_pos rfl,ih]
  | case6 escaped c rest free closed kept ih =>
    rw [run_copied raw rest (by simpa using free) (by simpa using closed),if_neg kept,ih,prepend_bind]
    simp only [List.append_assoc]

theorem run_extract (bracketed : Bool) (raw text : Text) :
    run (inside bracketed false raw) text =
      (Reading.extract (boundary bracketed) text).bind fun taken =>
        behind [.raw bracketed (raw ++ taken.1)] (run top taken.2) := by
  rw [run_inside,Reading.extract]
  cases Reading.content (boundary bracketed).isStop false text with
  | error halt => rfl
  | ok taken =>
    obtain ⟨copied,rest⟩ := taken
    cases bracketed with
    | false => rfl
    | true =>
      cases rest with
      | nil => rfl
      | cons closing after => simp [Except.bind,leave,boundary]

theorem run_blank (rest : Text) : run top (' ' :: rest) = run top rest := run_silent rest rfl

theorem run_root (rest : Text) : run top ('$' :: rest) = behind [.root] (run top rest) :=
  run_cons rest rfl

theorem run_separator (rest : Text) : run top ('.' :: rest) = run dot rest := run_silent rest rfl

theorem run_second_dot (rest : Text) :
    run dot ('.' :: rest) = behind [.descent] (run descent rest) := run_cons rest rfl

theorem run_blanks (text : Text) : run top (text.dropWhile (· == ' ')) = run top text := by
  induction text with
  | nil => rfl
  | cons c rest ih =>
    by_cases blank : c = ' '
    · subst c
      simpa [run_blank] using ih
    · simp [blank]

theorem run_bracket (rest : Text) :
    run top ('[' :: rest) = run (inside true false []) ('[' :: rest) :=
  run_congr rest rfl

theorem run_plain {c : Char} (rest : Text) (blank : c ≠ ' ') (root : c ≠ '$') (dot : c ≠ '.')
    (bracket : c ≠ '[') : run top (c :: rest) = run (inside false false []) (c :: rest) := by
  refine run_congr rest ?_
  by_cases opens : c = '('
  · subst c; rfl
  · by_cases slash : c = '\\' <;> simp [step,enter,blank,root,dot,bracket,opens,slash]

theorem run_dot (rest : Text) (single : rest.head? ≠ some '.') : run dot rest = run top rest := by
  cases rest with
  | nil => rfl
  | cons c rest => exact run_congr rest (if_neg fun same => single (congrArg some same))

theorem run_descent (rest : Text) (single : rest.head? ≠ some '.') :
    run descent rest = run top rest := by
  cases rest with
  | nil => rfl
  | cons c rest => exact run_congr rest (if_neg fun same => single (congrArg some same))

def outcome (text : Text) : Except Halt (List Fragment) :=
  (run top text).map (List.map Piece.fragment)

theorem behind_fragment (piece : Piece) (later : Except Halt (List Piece)) :
    (behind [piece] later).map (List.map Piece.fragment) =
      (later.map (List.map Piece.fragment)).map (piece.fragment :: ·) := by
  cases later <;> rfl

def ahead : Sighting → Except Halt (List Fragment)
  | .ending => .ok []
  | .separator rest => outcome rest
  | .fragment fragment rest => (outcome rest).map (fragment :: ·)
  | .halted halt => .error halt

theorem ahead_raw (bracketed : Bool) (text : Text) :
    (run (inside bracketed false []) text).map (List.map Piece.fragment) =
      ahead (.ofRaw (fun raw => (Piece.raw bracketed raw).fragment)
        (Reading.extract (boundary bracketed) text)) := by
  rw [run_extract]
  cases Reading.extract (boundary bracketed) text with
  | error halt => rfl
  | ok taken => exact behind_fragment _ _

theorem ahead_descent (rest : Text) :
    (run dot ('.' :: rest)).map (List.map Piece.fragment) = ahead (.descent rest) := by
  rw [run_second_dot,behind_fragment]
  cases rest with
  | nil => rfl
  | cons c rest =>
    by_cases third : c = '.'
    · subst c; rfl
    · rw [run_descent _ (by simpa using third)]
      simp [ahead,outcome,Sighting.descent,Reading.rejectNext,third]
      rfl

theorem outcome_sighting (text : Text) : outcome text = ahead (Sighting.of text) := by
  rw [outcome,← run_blanks,Sighting.of]
  split
  · rename_i found
    rw [found]; rfl
  · rename_i found
    rw [found,run_root,behind_fragment]; rfl
  · rename_i found
    rw [found,run_separator,ahead_descent]
  · rename_i rest single found
    have single : rest.head? ≠ some '.' := by
      cases rest with
      | nil => simp
      | cons c rest => intro same; cases same; exact single rest rfl
    rw [found,run_separator,run_dot rest single]; rfl
  · rename_i found
    rw [found,run_bracket,ahead_raw]; rfl
  · rename_i c rest root _ dot bracket found
    have blank : c ≠ ' ' := by
      have free := List.head?_dropWhile_not (· == ' ') text
      rw [found] at free
      simpa using free
    rw [found,run_plain rest blank root dot bracket,ahead_raw]; rfl

theorem split_fragment {text rest : Text} {fragment : Fragment}
    (met : Sighting.of text = .fragment fragment rest) :
    Scan.split text = (Scan.split rest).map fun taken => (fragment :: taken.1,taken.2) := by
  simp only [Scan.split,Scan.of_fragment met,Scan.onward]
  cases (Scan.of rest).halt <;> rfl

theorem split_run (text : Text) : Scan.split text = (outcome text).map (·,[]) := by
  induction text using Scan.sighting_induction with
  | ending text met =>
    rw [outcome_sighting,met,Scan.split,Scan.of_ending met]; rfl
  | separator text rest met ih =>
    rw [outcome_sighting,met,Scan.split,Scan.of_separator met]; exact ih
  | fragment text fragment rest met ih =>
    rw [split_fragment met,ih,outcome_sighting text,met,ahead]
    cases outcome rest <;> rfl
  | halted text halt met =>
    rw [outcome_sighting,met,Scan.split,Scan.of_halted met]; rfl

end Mode
end PathExpr
