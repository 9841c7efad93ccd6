import PathExpr.Proofs.Cursor
import PathExpr.Proofs.Mode.Reads

-- What the two refusals of a scan are worth: a path that is incomplete can be
-- completed, and one with an unexpected character is lost at that character.
namespace PathExpr

-- The parenthesis ends a group or a pending escape, whichever is there, and the
-- bracket ends the fragment. In a plain fragment both are mere content.
theorem Mode.run_closing {mode : Mode} {halt : Halt} (unfinished : mode.finish = .error halt) :
    ∃ pieces, run mode [')',']'] = .ok pieces := by
  cases mode with
  | top | dot | descent => cases unfinished
  | inside bracketed escaped raw =>
    cases bracketed with
    | false => cases unfinished
    | true => cases escaped <;> exact ⟨_,rfl⟩
  | group bracketed raw => cases bracketed <;> exact ⟨_,rfl⟩

namespace Cursor

variable {path used : Text}

theorem split_incomplete {fault : Fault} (failed : (start path).split.1 = .error (.unusable used fault))
    (incomplete : fault.className = "IncompletePathError".toList) :
    ∃ pieces next halt, Mode.Reads .top path pieces next ∧ next.finish = .error halt := by
  obtain ⟨halt,halted,same⟩ := split_failed failed
  rcases Mode.run_error halted with ⟨pieces,next,reads,unfinished⟩ | ⟨front,rest,pieces,_,_,rfl⟩
  · exact ⟨pieces,next,halt,reads,unfinished⟩
  · cases same
    have other : "UnexpectedCharacterError".toList = "IncompletePathError".toList := incomplete
    exact absurd other (by decide)

theorem split_unexpected {c : Char} {index : Nat}
    (failed : (start path).split.1 = .error (.unusable used (.unexpected c index))) :
    c = '.' ∧ ∃ front rest pieces, path = front ++ '.' :: rest ∧ front.length = index ∧
      Mode.Reads .top front pieces .descent := by
  obtain ⟨halt,halted,same⟩ := split_failed failed
  rcases Mode.run_error halted with ⟨pieces,next,_,unfinished⟩ | ⟨front,rest,pieces,rfl,reads,rfl⟩
  · rcases Mode.finish_halts unfinished with rfl | rfl <;> cases same
  · cases same
    exact ⟨rfl,front,rest,pieces,rfl,by simp,reads⟩

theorem split_lost {front : Text} {pieces : List Piece} (reads : Mode.Reads .top front pieces .descent)
    (later : Text) : (start (front ++ '.' :: later)).split.1 =
      .error (.unusable (front ++ '.' :: later) (.unexpected '.' front.length)) := by
  rw [split_halted (reads.run_refused later)]
  simp [Halt.failure]

theorem split_refused (path : Text) :
    (∀ used fault, (start path).split.1 = .error (.unusable used fault) →
      fault.className = "IncompletePathError".toList →
      ∃ fragments, (start (path ++ [')',']'])).split.1 = .ok fragments) ∧
    ∀ used c index, (start path).split.1 = .error (.unusable used (.unexpected c index)) →
      c = '.' ∧ 2 ≤ index ∧ (path.drop (index - 2)).take 3 = ['.','.','.'] ∧
        (∃ fragments, (start (path.take index)).split.1 = .ok fragments) ∧
        ∀ later, (start (path.take (index + 1) ++ later)).split.1 =
          .error (.unusable (path.take (index + 1) ++ later) (.unexpected c index)) := by
  constructor
  · intro used fault failed incomplete
    obtain ⟨pieces,next,halt,reads,unfinished⟩ := split_incomplete failed incomplete
    obtain ⟨last,closed⟩ := Mode.run_closing unfinished
    have ran := reads.run [')',']']
    rw [closed,Mode.behind_ok] at ran
    exact ⟨_,split_ran ran⟩
  · intro used c index failed
    obtain ⟨rfl,front,rest,pieces,rfl,rfl,reads⟩ := split_unexpected failed
    obtain ⟨earlier,ending⟩ := (reads.trails Mode.trails_top).dots
    have ending : front = earlier ++ ['.','.'] := ending.symm
    have finished : Mode.run .top front = .ok (pieces ++ []) := reads.run_all
    have before : (front ++ '.' :: rest).take front.length = front := List.take_left
    have through : (front ++ '.' :: rest).take (front.length + 1) = front ++ ['.'] :=
      List.take_length_add_append 1
    refine ⟨rfl,?_,?_,?_,?_⟩
    · simp [ending]
    · simp [ending]
    · rw [before]
      exact ⟨_,split_ran finished⟩
    · intro later
      rw [through,List.append_assoc]
      exact split_lost reads later

theorem split_refused_cases :
    ((start "$[a(b\\".toList).split.1 = .error (.unusable "$[a(b\\".toList .unclosedGroup) ∧
      ∃ fragments, (start ("$[a(b\\".toList ++ [')',']'])).split.1 = .ok fragments) ∧
    ((start "$.a[\\".toList).split.1 = .error (.unusable "$.a[\\".toList (.missing [']'])) ∧
      ∃ fragments, (start ("$.a[\\".toList ++ [')',']'])).split.1 = .ok fragments) ∧
    (start "$.a...[".toList).split.1 = .error (.unusable "$.a...[".toList (.unexpected '.' 5)) ∧
      ("$.a...[".toList.drop 3).take 3 = ['.','.','.'] ∧
      (∃ fragments, (start "$.a..".toList).split.1 = .ok fragments) ∧
      ∀ later, (start ("$.a...".toList ++ later)).split.1 =
        .error (.unusable ("$.a...".toList ++ later) (.unexpected '.' 5)) := by
  have group : (start "$[a(b\\".toList).split.1 = .error (.unusable _ .unclosedGroup) :=
    split_halted (show Mode.run .top _ = .error .unclosedGroup from rfl)
  have bracket : (start "$.a[\\".toList).split.1 = .error (.unusable _ (.missing [']'])) :=
    split_halted (show Mode.run .top _ = .error (.missing [']']) from rfl)
  have dots : (start "$.a...[".toList).split.1 = .error (.unusable _ (.unexpected '.' 5)) :=
    split_halted (show Mode.run .top _ = .error (.unexpected '.' ['[']) from rfl)
  obtain ⟨_,_,third,before,lost⟩ := (split_refused _).2 _ _ _ dots
  exact ⟨⟨group,(split_refused _).1 _ _ group rfl⟩,⟨bracket,(split_refused _).1 _ _ bracket rfl⟩,
    dots,third,before,lost⟩

end Cursor
end PathExpr
