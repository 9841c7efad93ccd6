import PathExpr.Proofs.Joining
import PathExpr.Proofs.Sighting

-- What stands in a group is of no account for the rest of a path. A scan that opens a group
-- takes it as it is, and goes on behind it as it would behind any other.
namespace PathExpr

def Text.parenthesized (inner : Text) : Text := '(' :: (inner ++ [')'])

namespace Reading

variable {isStop : Char → Bool} {inner : Text}

theorem content_parenthesized (free : isStop '(' = false) (unclosed : ')' ∉ inner) (back : Text) :
    content isStop false (inner.parenthesized ++ back) =
      prepend inner.parenthesized (content isStop false back) := by
  have taken := group_closes '(' unclosed back
  have whole : inner.parenthesized ++ back = '(' :: (inner ++ ')' :: back) := by simp [Text.parenthesized]
  rw [whole,content_group (by simp [free]) rfl taken]
  rfl

end Reading

namespace Scan

variable {path text body copied inner front back place rest : Text} {fragments : List Fragment} {bracketed : Bool}

inductive Passes : Text → List Fragment → Text → Prop where
  | here {text : Text} : Passes text [] text
  | separator {path rest text : Text} {fragments : List Fragment} (met : Sighting.of path = .separator rest)
      (later : Passes rest fragments text) : Passes path fragments text
  | fragment {path rest text : Text} {piece : Fragment} {fragments : List Fragment}
      (met : Sighting.of path = .fragment piece rest) (later : Passes rest fragments text) :
      Passes path (piece :: fragments) text

theorem split_separator (met : Sighting.of text = .separator rest) : split text = split rest := by
  rw [split,split,of_separator met]

theorem Passes.split (passes : Passes path fragments text) :
    split path = (split text).map fun later => (fragments ++ later.1,later.2) := by
  induction passes with
  | here => cases Scan.split _ <;> rfl
  | separator met _ ih => rw [split_separator met,ih]
  | @fragment path rest text piece fragments met _ ih =>
    rw [Mode.split_fragment met,ih]
    cases Scan.split text <;> rfl

theorem passed {slice : Text} (ahead : (Sighting.of path).rest? = some (slice ++ rest)) :
    ∃ front, path = front ++ (slice ++ rest) ∧ ∀ other, other.head? = rest.head? →
      Sighting.of (front ++ slice ++ other) = (Sighting.of path).onto (slice ++ other) := by
  obtain ⟨front,joined,same⟩ := Sighting.of_onto ahead
  refine ⟨front,joined,fun other first => ?_⟩
  rw [List.append_assoc]
  exact same _ (.inr (by cases slice <;> simp [first]))

theorem Passes.onto (passes : Passes path fragments text) :
    ∃ slice, path = slice ++ text ∧ ∀ other, other.head? = text.head? → Passes (slice ++ other) fragments other := by
  induction passes with
  | here => exact ⟨[],rfl,fun _ _ => .here⟩
  | separator met _ ih =>
    obtain ⟨slice,rfl,again⟩ := ih
    obtain ⟨front,rfl,same⟩ := passed (by rw [met]; rfl)
    rw [met] at same
    exact ⟨front ++ slice,by simp,fun other first => .separator (same other first) (again other first)⟩
  | fragment met _ ih =>
    obtain ⟨slice,rfl,again⟩ := ih
    obtain ⟨front,rfl,same⟩ := passed (by rw [met]; rfl)
    rw [met] at same
    exact ⟨front ++ slice,by simp,fun other first => .fragment (same other first) (again other first)⟩

def OpensGroup (path place : Text) : Prop := place.head? = some '(' ∧
  ∃ fragments text bracketed body copied, Passes path fragments text ∧ Sighting.Extracts text bracketed body ∧
    Reading.Copies (Mode.boundary bracketed).isStop false body copied false place

theorem OpensGroup.onto (opens : OpensGroup path place) : ∃ slice, path = slice ++ place ∧
    ∃ fragments bracketed copied, ∀ other, other.head? = some '(' → ∃ text body, Passes (slice ++ other) fragments text ∧
      Sighting.Extracts text bracketed body ∧
      Reading.Copies (Mode.boundary bracketed).isStop false body copied false other := by
  obtain ⟨opening,fragments,text,bracketed,body,copied,passes,extracts,copies⟩ := opens
  obtain ⟨inner,rfl,copiesOnto⟩ := copies.onto
  obtain ⟨padding,rfl,extractsOnto⟩ := extracts.onto
  obtain ⟨front,rfl,passesOnto⟩ := passes.onto
  refine ⟨front ++ padding ++ inner,by simp,fragments,bracketed,copied,fun other first => ?_⟩
  have head : (inner ++ other).head? = (inner ++ place).head? := by
    cases inner <;> simp [first,opening]
  have whole : (padding ++ (inner ++ other)).head? = (padding ++ (inner ++ place)).head? := by
    cases padding <;> simp [head]
  refine ⟨padding ++ (inner ++ other),inner ++ other,?_,extractsOnto _ head,copiesOnto other⟩
  simpa using passesOnto _ whole

def closing (bracketed : Bool) (raw back : Text) : Except Halt (List Fragment × Text) :=
  (Reading.extract (Mode.boundary bracketed) back).bind fun taken =>
    (split taken.2).map fun later => ((Piece.raw bracketed (raw ++ taken.1)).fragment :: later.1,later.2)

theorem split_closing (extracts : Sighting.Extracts text bracketed body)
    (copied : Reading.content (Mode.boundary bracketed).isStop false body =
      Reading.prepend front (Reading.content (Mode.boundary bracketed).isStop false back)) :
    split text = closing bracketed front back := by
  have met := extracts.met
  rw [Reading.extract_prepend copied] at met
  unfold closing
  cases taken : Reading.extract (Mode.boundary bracketed) back with
  | error halt =>
    rw [taken] at met
    rw [split,of_halted met]
    rfl
  | ok read =>
    rw [taken] at met
    exact Mode.split_fragment met

theorem isStop_opening (bracketed : Bool) : (Mode.boundary bracketed).isStop '(' = false := by
  cases bracketed <;> rfl

theorem split_parenthesized (passes : Passes path fragments text) (extracts : Sighting.Extracts text bracketed body)
    (copies : Reading.Copies (Mode.boundary bracketed).isStop false body copied false (inner.parenthesized ++ back))
    (unclosed : ')' ∉ inner) : split path =
      (closing bracketed (copied ++ inner.parenthesized) back).map fun later => (fragments ++ later.1,later.2) := by
  have content := copies.content
  rw [Reading.content_parenthesized (isStop_opening bracketed) unclosed,Reading.prepend_prepend] at content
  rw [passes.split,split_closing extracts content]

-- How a fragment ends, and what comes of the rest, is the same whatever is copied of it.
theorem closing_cases (bracketed : Bool) (back : Text) :
    (∃ more later rest, ∀ raw,
      closing bracketed raw back = .ok ((Piece.raw bracketed (raw ++ more)).fragment :: later,rest)) ∨
    ∃ halt, halt.rest <:+ back ∧ ∀ raw, closing bracketed raw back = .error halt := by
  unfold closing
  cases taken : Reading.extract (Mode.boundary bracketed) back with
  | error halt => exact .inr ⟨halt,(Reading.extract_onward _).halt taken,fun _ => rfl⟩
  | ok read =>
    obtain ⟨more,rest⟩ := read
    have within := (Reading.extract_onward _).value taken
    cases later : split rest with
    | ok found => exact .inl ⟨more,found.1,found.2,fun _ => by simp [Except.bind,Except.map,later]⟩
    | error halt =>
      exact .inr ⟨halt,(split_onward.halt later).trans within,fun _ => by simp [Except.bind,Except.map,later]⟩

end Scan

namespace Cursor

variable {path : Text}

theorem split_scanned (path : Text) :
    (start path).split.1 = ((Scan.split path).map Prod.fst).mapError (Halt.failure path) := by
  rw [split,run_outcome]
  rfl

theorem split_fault {halt : Halt} (text : Text) (halted : Scan.split path = .error halt) :
    ∃ fault, halt.failure text = .unusable text fault := by
  rw [Mode.split_run,Mode.outcome] at halted
  cases ran : Mode.run .top path with
  | ok pieces => rw [ran] at halted; cases halted
  | error found =>
    rw [ran] at halted
    cases halted
    rcases Mode.run_halts ran with rfl | rfl | ⟨rest,rfl⟩ <;> exact ⟨_,rfl⟩

-- Two splits of a path with one content of a group or another in it. Either all fragments
-- but the one around the group are the same, or both scans fail in the same way, the one as
-- far behind the group as the other.
inductive Regrouped (front back inner other : Text) :
    Except Failure (List Fragment) → Except Failure (List Fragment) → Prop where
  | fragments (earlier later : List Fragment) (bracketed : Bool) (before behind : Text) :
      Regrouped front back inner other
        (.ok (earlier ++ (Piece.raw bracketed (before ++ inner.parenthesized ++ behind)).fragment :: later))
        (.ok (earlier ++ (Piece.raw bracketed (before ++ other.parenthesized ++ behind)).fragment :: later))
  | faults (fault : Fault) :
      Regrouped front back inner other
        (.error (.unusable (front ++ (inner.parenthesized ++ back)) (fault.moved (front ++ inner.parenthesized).length)))
        (.error (.unusable (front ++ (other.parenthesized ++ back)) (fault.moved (front ++ other.parenthesized).length)))

theorem split_regrouped {front back inner other : Text} (unclosed : ')' ∉ inner ∧ ')' ∉ other)
    (opens : Scan.OpensGroup (front ++ (inner.parenthesized ++ back)) (inner.parenthesized ++ back)) :
    Scan.OpensGroup (front ++ (other.parenthesized ++ back)) (other.parenthesized ++ back) ∧
      Regrouped front back inner other (start (front ++ (inner.parenthesized ++ back))).split.1
        (start (front ++ (other.parenthesized ++ back))).split.1 := by
  obtain ⟨slice,joined,earlier,bracketed,before,onto⟩ := opens.onto
  obtain rfl := List.append_cancel_right joined
  have scanned (group : Text) (closed : ')' ∉ group) : Scan.split (front ++ (group.parenthesized ++ back)) =
      (Scan.closing bracketed (before ++ group.parenthesized) back).map fun later => (earlier ++ later.1,later.2) := by
    obtain ⟨text,body,passes,extracts,copies⟩ := onto (group.parenthesized ++ back) rfl
    exact Scan.split_parenthesized passes extracts copies closed
  refine ⟨?_,?_⟩
  · obtain ⟨text,body,passes,extracts,copies⟩ := onto (other.parenthesized ++ back) rfl
    exact ⟨rfl,earlier,text,bracketed,body,before,passes,extracts,copies⟩
  · have one := scanned inner unclosed.1
    have two := scanned other unclosed.2
    rw [split_scanned,split_scanned]
    rcases Scan.closing_cases bracketed back with ⟨behind,later,rest,closes⟩ | ⟨halt,within,closes⟩
    · rw [closes] at one two
      rw [one,two]
      exact .fragments earlier later bracketed before behind
    · rw [closes] at one two
      obtain ⟨fault,failed⟩ := split_fault back one
      have moved (group : Text) : halt.failure (front ++ (group.parenthesized ++ back)) = .unusable
          (front ++ (group.parenthesized ++ back)) (fault.moved (front ++ group.parenthesized).length) := by
        rw [← List.append_assoc,Halt.failure_moved _ within,failed]
        rfl
      rw [one,two]
      simp only [Except.map,Except.mapError,moved]
      exact .faults fault

theorem split_regrouped_cases :
    let dots : Text := "x]..\\".toList
    let marks : Text := "'(".toList
    Scan.OpensGroup ("$[".toList ++ (dots.parenthesized ++ "]..b".toList)) (dots.parenthesized ++ "]..b".toList) ∧
      Regrouped "$[".toList "]..b".toList dots marks
        (start ("$[".toList ++ (dots.parenthesized ++ "]..b".toList))).split.1
        (start ("$[".toList ++ (marks.parenthesized ++ "]..b".toList))).split.1 ∧
      Regrouped "c".toList "[0]...".toList marks dots
        (start ("c".toList ++ (marks.parenthesized ++ "[0]...".toList))).split.1
        (start ("c".toList ++ (dots.parenthesized ++ "[0]...".toList))).split.1 := by
  intro dots marks
  have bracketed : Scan.OpensGroup ("$[".toList ++ (dots.parenthesized ++ "]..b".toList))
      (dots.parenthesized ++ "]..b".toList) := by
    refine ⟨rfl,[.root],'[' :: (dots.parenthesized ++ "]..b".toList),true,_,['['],?_,.bracketed rfl,?_⟩
    · exact .fragment (Sighting.met_root rfl) .here
    · exact .kept (by decide) (by decide) (by decide) .done
  have plain : Scan.OpensGroup ("c".toList ++ (marks.parenthesized ++ "[0]...".toList))
      (marks.parenthesized ++ "[0]...".toList) := by
    refine ⟨rfl,[],_,false,_,['c'],.here,.plain rfl (by decide) (by decide) (by decide),?_⟩
    exact .kept (by decide) (by decide) (by decide) .done
  exact ⟨bracketed,(split_regrouped (by decide) bracketed).2,(split_regrouped (by decide) plain).2⟩

end Cursor
end PathExpr
