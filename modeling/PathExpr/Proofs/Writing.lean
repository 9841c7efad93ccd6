import PathExpr.Proofs.Sugar
import PathExpr.Proofs.TokenizedPath

namespace PathExpr

namespace Mode

def escape (marks : Char → Bool) (text : Text) : Text :=
  text.flatMap fun c => if marks c then ['\\',c] else [c]

theorem escape_cons (marks : Char → Bool) (c : Char) (text : Text) :
    escape marks (c :: text) = (if marks c then ['\\',c] else [c]) ++ escape marks text := rfl

theorem mem_escape {marks : Char → Bool} {text : Text} {c : Char} (within : c ∈ escape marks text) :
    c = '\\' ∨ c ∈ text := by
  obtain ⟨d,member,written⟩ := List.mem_flatMap.mp within
  split at written
  · rcases List.mem_cons.mp written with slash | same
    · exact .inl slash
    · exact .inr (List.mem_singleton.mp same ▸ member)
  · exact .inr (List.mem_singleton.mp written ▸ member)

-- Inside a fragment an escaped text is copied as it was before, provided every
-- character with a part of its own there has been marked.
theorem run_escaped {bracketed : Bool} {marks : Char → Bool} {text : Text} (raw rest : Text)
    (marked : ∀ c, (boundary bracketed).isStop c = true ∨ c = '(' → marks c = true)
    (plain : '\\' ∉ text) :
    run (inside bracketed false raw) (escape marks text ++ rest) =
      run (inside bracketed false (raw ++ text)) rest := by
  induction text generalizing raw with
  | nil => rw [List.append_nil]; rfl
  | cons c text ih =>
    have other : c ≠ '\\' := fun same => plain (by simp [same])
    have later := ih (raw ++ [c]) fun within => plain (List.mem_cons_of_mem c within)
    rw [List.append_assoc] at later
    rw [escape_cons]
    by_cases escaped : marks c = true
    · have slash : (boundary bracketed).isStop '\\' = false := by cases bracketed <;> decide
      have pending : run (inside bracketed true raw) (c :: (escape marks text ++ rest)) =
          run (inside bracketed false (raw ++ [c])) (escape marks text ++ rest) := by
        rw [run_copied raw _ rfl rfl,if_neg other]
      rw [if_pos escaped]
      refine (run_copied raw _ (by simp [slash]) rfl).trans ?_
      rw [if_pos rfl]
      exact pending.trans later
    · have free : ¬((boundary bracketed).isStop c = true ∨ c = '(') := fun part => escaped (marked c part)
      rw [if_neg escaped]
      refine (run_copied raw _ (by simpa using fun stop => free (.inl stop))
        (by simpa using fun opens => free (.inr opens))).trans ?_
      rw [if_neg other]
      exact later

theorem run_left {bracketed : Bool} (raw rest : Text)
    (ends : ∀ c ∈ rest.head?, (boundary bracketed).isStop c = true) :
    run (inside bracketed false raw) rest = leave bracketed raw rest := by
  cases rest with
  | nil => exact run_end bracketed false raw
  | cons c rest => exact run_stop raw rest (ends c rfl)

end Mode

namespace Fragment

open Mode

-- A plain fragment stands behind a dot and marks what would end it or open a
-- group, and a `$` in front. A bracketed one is a quoted key.
def written : Fragment → Text
  | ⟨text,false⟩ =>
    '.' :: ((if text.head? = some '$' then ['\\'] else []) ++ escape ['.','[','('].contains text)
  | ⟨text,true⟩ => ['[','\''] ++ escape [']','('].contains text ++ ['\'',']']

-- What can be written at all: no backslash survives a scan, and the text has to be
-- one that cleaning leaves alone, as a plain fragment or as the content of a key.
structure Writable (fragment : Fragment) : Prop where
  nonempty : fragment.text ≠ []
  unescaped : '\\' ∉ fragment.text
  plain : fragment.bracketed = false → Sugar.clean fragment.text = fragment.text
  quoted : fragment.bracketed = true →
    Text.strip fragment.text = fragment.text ∧ Sugar.Unpadded fragment.text

def piece : Fragment → Piece
  | ⟨text,false⟩ => .raw false text
  | ⟨text,true⟩ => .raw true (['[','\''] ++ text ++ ['\'',']'])

theorem run_dot_plain {c : Char} (rest : Text) (blank : c ≠ ' ') (root : c ≠ '$') (dot : c ≠ '.')
    (bracket : c ≠ '[') : run .dot (c :: rest) = run (inside false false []) (c :: rest) :=
  (run_dot (c :: rest) (by simpa using dot)).trans (run_plain rest blank root dot bracket)

theorem marked_plain (c : Char) (part : (boundary false).isStop c = true ∨ c = '(') :
    ['.','[','('].contains c = true := by
  rw [isStop_plain] at part
  rcases part with (rfl | rfl) | rfl <;> decide

theorem marked_bracketed (c : Char) (part : (boundary true).isStop c = true ∨ c = '(') :
    [']','('].contains c = true := by
  rw [isStop_bracketed] at part
  rcases part with rfl | rfl <;> decide

theorem run_plain_content {text : Text} (rest : Text) (writable : Writable ⟨text,false⟩) :
    run top (written ⟨text,false⟩ ++ rest) = run (inside false false text) rest := by
  have clean : Sugar.clean text = text := writable.plain rfl
  have content := run_escaped [] rest marked_plain writable.unescaped
  rw [written,List.cons_append,run_separator,List.append_assoc]
  cases text with
  | nil => exact absurd rfl writable.nonempty
  | cons c tail =>
    by_cases root : c = '$'
    · subst c
      -- The backslash in front is not part of the escaped text, so that it is read on its own.
      have opened (later : Text) : run .dot ('\\' :: '$' :: later) = run (inside false false ['$']) later :=
        (run_silent _ rfl).trans (run_silent _ rfl)
      have plain : '\\' ∉ tail := fun within => writable.unescaped (List.mem_cons_of_mem _ within)
      exact (opened _).trans (run_escaped ['$'] rest marked_plain plain)
    · have blank : c ≠ ' ' := by
        rintro rfl
        have free : Text.isBlank ' ' = false := Sugar.clean_head (by rw [clean]; rfl)
        simp [Text.isBlank_space] at free
      rw [if_neg (by simpa using root),List.nil_append]
      refine Eq.trans ?_ content
      rw [escape_cons]
      by_cases marked : ['.','[','('].contains c = true
      · rw [if_pos marked]
        exact run_dot_plain _ (by decide) (by decide) (by decide) (by decide)
      · rw [if_neg marked]
        simp only [List.contains_cons,List.contains_nil,Bool.or_false,Bool.or_eq_true,beq_iff_eq,
          not_or] at marked
        exact run_dot_plain _ blank root marked.1 marked.2.1

theorem run_bracketed_content {text : Text} (rest : Text) (writable : Writable ⟨text,true⟩) :
    run top (written ⟨text,true⟩ ++ rest) =
      behind [piece ⟨text,true⟩] (run top rest) := by
  have content := run_escaped ['[','\''] ('\'' :: ']' :: rest) marked_bracketed writable.unescaped
  have opened (later : Text) : run top ('[' :: '\'' :: later) = run (inside true false ['[','\'']) later :=
    (run_silent _ rfl).trans (run_silent _ rfl)
  have closed (raw : Text) : run (inside true false raw) ('\'' :: ']' :: rest) =
      behind [.raw true (raw ++ ['\''] ++ [']'])] (run top rest) :=
    (run_silent _ rfl).trans (run_cons _ rfl)
  simp only [written,piece,List.append_assoc,List.cons_append,List.nil_append] at content closed ⊢
  rw [opened,content,closed]
  rfl

theorem run_written (fragment : Fragment) (rest : Text) (writable : fragment.Writable)
    (ends : ∀ c ∈ rest.head?, c = '[' ∨ c = '.') :
    run top (fragment.written ++ rest) = behind [fragment.piece] (run top rest) := by
  obtain ⟨text,bracketed⟩ := fragment
  cases bracketed with
  | true => exact run_bracketed_content rest writable
  | false =>
    rw [run_plain_content rest writable,run_left text rest fun c next => (isStop_plain c).mpr (ends c next)]
    rfl

theorem written_head (fragment : Fragment) :
    fragment.written.head? = some (if fragment.bracketed then '[' else '.') := by
  obtain ⟨text,bracketed⟩ := fragment
  cases bracketed <;> rfl

theorem run_writtens (fragments : List Fragment) (writable : ∀ fragment ∈ fragments, fragment.Writable) :
    run top (fragments.flatMap written) = .ok (fragments.map piece) := by
  induction fragments with
  | nil => rfl
  | cons fragment later ih =>
    have ends : ∀ c ∈ (later.flatMap written).head?, c = '[' ∨ c = '.' := by
      intro c first
      cases later with
      | nil => cases first
      | cons next others =>
        rw [List.flatMap_cons,List.head?_append,written_head,Option.some_or] at first
        cases first
        cases next.bracketed
        · exact .inr rfl
        · exact .inl rfl
    rw [List.flatMap_cons,run_written fragment _ (writable _ List.mem_cons_self) ends,
      ih fun other member => writable other (List.mem_cons_of_mem _ member)]
    rfl

theorem piece_fragment {fragment : Fragment} (writable : fragment.Writable) :
    fragment.piece.fragment = fragment := by
  obtain ⟨text,bracketed⟩ := fragment
  cases bracketed with
  | false =>
    have clean : Sugar.clean text = text := writable.plain rfl
    rw [piece,Piece.fragment,clean]
  | true =>
    obtain ⟨stripped,unpadded⟩ := writable.quoted rfl
    have clean := Sugar.cleanBracketed_quoted writable.nonempty stripped unpadded
    rw [piece,Piece.fragment,clean]

theorem mem_written {fragment : Fragment} {c : Char} (within : c ∈ fragment.written)
    (symbol : c ∉ ['.','\\','[','\'',']']) : c ∈ fragment.text := by
  obtain ⟨text,bracketed⟩ := fragment
  simp only [List.mem_cons,List.not_mem_nil,or_false,not_or] at symbol
  cases bracketed with
  | false =>
    simp only [written,List.mem_cons,List.mem_append] at within
    rcases within with dot | lead | copied
    · exact absurd dot symbol.1
    · split at lead
      · exact absurd (List.mem_singleton.mp lead) symbol.2.1
      · cases lead
    · exact (mem_escape copied).resolve_left symbol.2.1
  | true =>
    simp only [written,List.mem_cons,List.mem_append,List.not_mem_nil,or_false] at within
    rcases within with ((bracket | quote) | copied) | quote | bracket
    · exact absurd bracket symbol.2.2.1
    · exact absurd quote symbol.2.2.2.1
    · exact (mem_escape copied).resolve_left symbol.2.1
    · exact absurd quote symbol.2.2.2.1
    · exact absurd bracket symbol.2.2.2.2

end Fragment

theorem Admission.callFault_free {path : Text} (free : '(' ∉ path) : Admission.callFault? path = none := by
  have calls : (path.zip path.tail).findIdx? Admission.isCall = none := by
    rw [List.findIdx?_eq_none_iff]
    intro neighbours member
    have second := (List.of_mem_zip member).2
    have other : neighbours.2 ≠ '(' := fun same => free (same ▸ List.mem_of_mem_tail second)
    simp [Admission.isCall,other]
  rw [Admission.callFault?,Admission.callee?,calls]
  rfl

theorem Options.used_root (options : Options) (rest : Text) : options.used ('$' :: rest) = '$' :: rest := by
  simp [Options.used,Admission.rooted]

theorem tokenize_written (options : Options) (keys : List Fragment)
    (unlimited : options.maxLength = none) (writable : ∀ key ∈ keys, key.Writable)
    (uncalled : options.checkCalls = true → ∀ key ∈ keys, '(' ∉ key.text) :
    tokenize options ('$' :: keys.flatMap Fragment.written) =
      .ok ⟨'$' :: keys.flatMap Fragment.written,
        ⟨['$'],0,keys.isEmpty,false⟩ :: keys.mapIdx fun index key =>
          ⟨key.text,index + 1,index + 1 == keys.length,key.bracketed⟩⟩ := by
  have free : options.callFault? ('$' :: keys.flatMap Fragment.written) = none := by
    rw [Options.callFault?]
    split
    · rename_i checked
      refine Admission.callFault_free fun within => ?_
      obtain ⟨key,member,inside⟩ := List.mem_flatMap.mp ((List.mem_cons.mp within).resolve_left (by decide))
      exact uncalled checked key member (Fragment.mem_written inside (by decide))
    · rfl
  have ran : Mode.run .top ('$' :: keys.flatMap Fragment.written) =
      .ok (.root :: keys.map Fragment.piece) := by
    rw [Mode.run_root,Fragment.run_writtens keys writable]
    rfl
  have cleaned : (keys.map Fragment.piece).map Piece.fragment = keys := by
    rw [List.map_map]
    exact (List.map_congr_left fun key member => Fragment.piece_fragment (writable key member)).trans
      (List.map_id keys)
  rw [← Options.used_root options] at ran
  rw [tokenize_ran unlimited free ran,Options.used_root,TokenizedPath.ofPieces,List.map_cons,cleaned,
    Token.ofFragments_cons]
  rfl

theorem tokenize_written_mixed :
    tokenize {checkCalls:=false} "$.\\$a\\.b\\(c\\[0]['it's?\\(a b)\\]'].\\.\\.".toList =
      .ok ⟨"$.\\$a\\.b\\(c\\[0]['it's?\\(a b)\\]'].\\.\\.".toList,
        [⟨['$'],0,false,false⟩,⟨"$a.b(c[0]".toList,1,false,false⟩,
          ⟨"it's?(a b)]".toList,2,false,true⟩,⟨"..".toList,3,true,false⟩]⟩ := by
  have plain : Fragment.Writable ⟨"$a.b(c[0]".toList,false⟩ :=
    ⟨by decide,by decide,fun _ => by decide +kernel,by simp⟩
  have quoted : Fragment.Writable ⟨"it's?(a b)]".toList,true⟩ :=
    ⟨by decide,by decide,by simp,fun _ => ⟨by decide,by simp [Sugar.Unpadded,Sugar.isMark]⟩⟩
  have dots : Fragment.Writable ⟨"..".toList,false⟩ :=
    ⟨by decide,by decide,fun _ => by decide +kernel,by simp⟩
  exact tokenize_written {checkCalls:=false}
    [⟨"$a.b(c[0]".toList,false⟩,⟨"it's?(a b)]".toList,true⟩,⟨"..".toList,false⟩] rfl
    (by simpa using ⟨plain,quoted,dots⟩) (by simp)

end PathExpr
