import PathExpr.Proofs.TokenizedPath

-- The root in front of a relative path is spliced in as text, so that the scan has
-- to read its dot together with whatever the path starts with.
namespace PathExpr

namespace Mode

theorem run_rooted (path : Text) (single : path.head? ≠ some '.') :
    run top ('$' :: '.' :: path) = behind [.root] (run top path) := by
  rw [run_root,run_separator,run_dot path single]

theorem run_rooted_dot (rest : Text) (single : rest.head? ≠ some '.') :
    run top ('$' :: '.' :: '.' :: rest) = behind [.root,.descent] (run top ('.' :: rest)) := by
  rw [run_root,run_separator,run_second_dot,run_descent rest single,behind_behind,
    run_separator,run_dot rest single]
  rfl

theorem run_rooted_dots (rest : Text) :
    run top ('$' :: '.' :: '.' :: '.' :: rest) = .error (.unexpected '.' rest) := by
  rw [run_root,run_separator,run_second_dot,run_refused rest (step_refused.mpr ⟨rfl,rfl⟩)]
  rfl

end Mode

-- Of two tokenizations, one has everything the other has, behind some
-- fragments of its own; or both fail, with faults of one class.
inductive Led (front : List Fragment) :
    Except Failure TokenizedPath → Except Failure TokenizedPath → Prop where
  | tokens {bare led : TokenizedPath} (origins : led.origins = front ++ bare.origins) :
      Led front (.ok bare) (.ok led)
  | faults {path used : Text} {bare led : Fault} (same : led.className = bare.className) :
      Led front (.error (.unusable path bare)) (.error (.unusable used led))

namespace Led

theorem of_halts {halt : Halt} (path used : Text) (front : List Fragment)
    (halts : halt = .missing [']'] ∨ halt = .unclosedGroup ∨ ∃ rest, halt = .unexpected '.' rest) :
    Led front (.error (halt.failure path)) (.error (halt.failure used)) := by
  rcases halts with rfl | rfl | ⟨rest,rfl⟩
  · exact .faults rfl
  · exact .faults rfl
  · exact .faults rfl

theorem of_run {bare led : Options} {path : Text} (pieces : List Piece)
    (unlimited : bare.maxLength = none ∧ led.maxLength = none)
    (free : bare.callFault? path = none ∧ led.callFault? path = none)
    (ran : Mode.run .top (led.used path) = Mode.behind pieces (Mode.run .top (bare.used path))) :
    Led (pieces.map Piece.fragment) (tokenize bare path) (tokenize led path) := by
  cases found : Mode.run .top (bare.used path) with
  | error halt =>
    rw [found,Mode.behind_error] at ran
    rw [tokenize_halted unlimited.1 free.1 found,tokenize_halted unlimited.2 free.2 ran]
    exact of_halts _ _ _ (Mode.run_halts found)
  | ok later =>
    rw [found,Mode.behind_ok] at ran
    rw [tokenize_ran unlimited.1 free.1 found,tokenize_ran unlimited.2 free.2 ran]
    refine .tokens ?_
    rw [TokenizedPath.ofPieces_origins,TokenizedPath.ofPieces_origins,List.map_append]

end Led

theorem rooted_relative {path : Text} (relative : path.head? ≠ some '$') :
    Admission.rooted path = '$' :: '.' :: path := by
  cases path with
  | nil => rfl
  | cons c rest =>
    have other : ¬('$' = c) := fun same => relative (congrArg some same.symm)
    simp [Admission.rooted,other]

theorem tokenize_rooted (checkCalls : Bool) (path : Text) (relative : path.head? ≠ some '$') :
    let bare := tokenize {autoRoot:=false,checkCalls:=checkCalls} path
    let led := tokenize {autoRoot:=true,checkCalls:=checkCalls} path
    (path.head? ≠ some '.' → Led [.root] bare led) ∧
    (∀ rest, path = '.' :: rest → rest.head? ≠ some '.' → Led [.root,.descent] bare led) ∧
    ∀ rest, path = '.' :: '.' :: rest →
      led = .error (match Options.callFault? {checkCalls:=checkCalls} path with
        | some fault => .unusable path fault
        | none => .unusable ('$' :: '.' :: path) (.unexpected '.' 3)) := by
  intro bare led
  have used : Options.used {autoRoot:=true,checkCalls:=checkCalls} path = '$' :: '.' :: path :=
    rooted_relative relative
  cases called : Options.callFault? {checkCalls:=checkCalls} path with
  | some fault =>
    have bareRefused : bare = .error (.unusable path fault) := tokenize_refused rfl called
    have ledRefused : led = .error (.unusable path fault) := tokenize_refused rfl called
    rw [bareRefused,ledRefused]
    exact ⟨fun _ => .faults rfl,fun _ _ _ => .faults rfl,fun _ _ => rfl⟩
  | none =>
    refine ⟨?_,?_,?_⟩
    · intro single
      refine Led.of_run [.root] ⟨rfl,rfl⟩ ⟨called,called⟩ ?_
      rw [used]
      exact Mode.run_rooted path single
    · rintro rest rfl single
      refine Led.of_run [.root,.descent] ⟨rfl,rfl⟩ ⟨called,called⟩ ?_
      rw [used]
      exact Mode.run_rooted_dot rest single
    · rintro rest rfl
      have halted : Mode.run .top (Options.used {autoRoot:=true,checkCalls:=checkCalls} ('.' :: '.' :: rest)) =
          .error (.unexpected '.' rest) := by
        rw [used]
        exact Mode.run_rooted_dots rest
      have refused : led = _ := tokenize_halted rfl called halted
      rw [refused,used]
      simp [Halt.failure]

theorem tokenize_rooted_cases :
    Led [.root] (tokenize {autoRoot:=false} " ['a'].b[?(c)]".toList) (tokenize {} " ['a'].b[?(c)]".toList) ∧
    Led [.root,.descent] (tokenize {autoRoot:=false} ".a[0]".toList) (tokenize {} ".a[0]".toList) ∧
    tokenize {} "..a".toList = .error (.unusable "$...a".toList (.unexpected '.' 3)) :=
  ⟨(tokenize_rooted true _ (by decide)).1 (by decide),
    (tokenize_rooted true _ (by decide)).2.1 "a[0]".toList rfl (by decide),
    (tokenize_rooted true _ (by decide)).2.2 ['a'] rfl⟩

-- A leading dot is read twice over: `.a` has one fragment, `$..a` has three.
theorem root_not_alone : ¬∀ (checkCalls : Bool) (path : Text), path.head? ≠ some '$' →
    Led [.root] (tokenize {autoRoot:=false,checkCalls:=checkCalls} path)
      (tokenize {autoRoot:=true,checkCalls:=checkCalls} path) := by
  intro alone
  have claimed := alone true ['.','a'] (by decide)
  have bare : tokenize {autoRoot:=false} ['.','a'] =
      .ok (.ofPieces ['.','a'] [.raw false ['a']]) := tokenize_ran rfl rfl rfl
  have led : tokenize {} ['.','a'] =
      .ok (.ofPieces ['$','.','.','a'] [.root,.descent,.raw false ['a']]) := tokenize_ran rfl rfl rfl
  rw [bare,led] at claimed
  cases claimed with
  | tokens origins =>
    simp only [TokenizedPath.ofPieces_origins] at origins
    have counts := congrArg List.length origins
    revert counts
    decide

end PathExpr
