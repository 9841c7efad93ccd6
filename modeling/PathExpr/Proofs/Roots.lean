import Mathlib.Data.List.Infix
import PathExpr.Proofs.Rooting

-- Which tokens are roots. Only the first can be one, and whether it is depends on what
-- its fragment reads, however that was written.
namespace PathExpr

namespace Token

theorem isRoot_first (first : Fragment) (rest : List Fragment) :
    (∃ token, (ofFragments (first :: rest)).head? = some token ∧ token.isRoot = true) ↔
      first.text = ['$'] := by
  simp [ofFragments_cons,isRoot]

theorem isRoot_later (fragments : List Fragment) :
    ∀ token ∈ (ofFragments fragments).tail, token.isRoot = false := by
  intro token member
  cases fragments with
  | nil => cases member
  | cons first rest =>
    rw [ofFragments_cons,List.tail_cons] at member
    obtain ⟨index,_,rfl⟩ := List.mem_mapIdx.mp member
    rfl

end Token

-- A path without its leading blanks and lone dots. Two dots side by side are a
-- fragment, and no part of what is left out.
def Text.lead : Text → Text
  | ' ' :: rest => lead rest
  | '.' :: '.' :: rest => '.' :: '.' :: rest
  | '.' :: rest => lead rest
  | path => path

namespace Mode

variable {path : Text} {pieces : List Piece}

theorem run_lead (path : Text) : run top path.lead = run top path := by
  fun_induction Text.lead path with
  | case1 rest ih => rw [ih,run_blank]
  | case2 rest => rfl
  | case3 rest single ih =>
    have alone : rest.head? ≠ some '.' := by
      intro first
      obtain ⟨later,rfl⟩ := List.head?_eq_some_iff.mp first
      exact single later rfl
    rw [ih,run_separator,run_dot rest alone]
  | case4 path => rfl

theorem lead_free (path : Text) : path.lead.head? ≠ some ' ' ∧
    ∀ rest, path.lead = '.' :: rest → rest.head? = some '.' := by
  fun_induction Text.lead path with
  | case1 rest ih => exact ih
  | case2 rest => exact ⟨by simp,by rintro later ⟨⟩; rfl⟩
  | case3 rest single ih => exact ih
  | case4 path blank double single =>
    refine ⟨?_,fun rest same => absurd same (single rest)⟩
    intro first
    obtain ⟨rest,rfl⟩ := List.head?_eq_some_iff.mp first
    exact blank rest rfl

theorem run_content {bracketed : Bool} {text : Text} (ran : run (inside bracketed false []) text = .ok pieces) :
    ∃ raw later, pieces = .raw bracketed raw :: later := by
  rw [run_extract] at ran
  cases taken : Reading.extract (boundary bracketed) text with
  | error halt => rw [taken] at ran; cases ran
  | ok read =>
    rw [taken] at ran
    obtain ⟨later,_,rfl⟩ := behind_accepted ran
    exact ⟨_,later,rfl⟩

theorem run_first_root (ran : run top path = .ok pieces) :
    pieces.head? = some .root ↔ path.lead.head? = some '$' := by
  obtain ⟨blank,double⟩ := lead_free path
  rw [← run_lead] at ran
  cases led : path.lead with
  | nil =>
    rw [led] at ran
    cases ran
    simp
  | cons c rest =>
    rw [led] at ran blank
    have blank : c ≠ ' ' := by simpa using blank
    by_cases root : c = '$'
    · subst root
      rw [run_root] at ran
      obtain ⟨later,_,rfl⟩ := behind_accepted ran
      simp
    · have raw (bracketed : Bool) (content : run (inside bracketed false []) (c :: rest) = .ok pieces) :
          pieces.head? = some .root ↔ (c :: rest).head? = some '$' := by
        obtain ⟨text,later,rfl⟩ := run_content content
        simp [root]
      by_cases dot : c = '.'
      · subst dot
        obtain ⟨later,rfl⟩ := List.head?_eq_some_iff.mp (double rest led)
        rw [run_separator,run_second_dot] at ran
        obtain ⟨others,_,rfl⟩ := behind_accepted ran
        simp
      · by_cases bracket : c = '['
        · subst bracket
          rw [run_bracket] at ran
          exact raw true ran
        · rw [run_plain rest blank root dot bracket] at ran
          exact raw false ran

end Mode

theorem tokenize_bare_root {options : Options} {path : Text} {tokenized : TokenizedPath}
    (bare : options.autoRoot = false) (accepted : tokenize options path = .ok tokenized) :
    ((∃ token, tokenized.tokens.head? = some token ∧ token.isRoot = true) ↔
      path.lead.head? = some '$' ∨
        ∃ bracketed raw later, Mode.run .top path = .ok (.raw bracketed raw :: later) ∧
          (Piece.raw bracketed raw).fragment.text = ['$']) ∧
    ∀ token ∈ tokenized.tokens.tail, token.isRoot = false := by
  obtain ⟨pieces,ran,rfl⟩ := tokenize_accepted accepted
  have used : options.used path = path := by rw [Options.used,bare]; rfl
  rw [used] at ran ⊢
  refine ⟨?_,Token.isRoot_later _⟩
  rw [← Mode.run_first_root ran,TokenizedPath.ofPieces,ran]
  cases pieces with
  | nil => simp [Token.ofFragments]
  | cons first later =>
    rw [List.map_cons,Token.isRoot_first]
    cases first with
    | root => simp [Piece.fragment,Fragment.root]
    | descent => simp [Piece.fragment,Fragment.descent]
    | raw bracketed text =>
      constructor
      · intro cleaned
        exact .inr ⟨bracketed,text,later,rfl,cleaned⟩
      · rintro (root | ⟨_,_,_,same,cleaned⟩)
        · cases root
        · cases same
          exact cleaned

theorem tokenize_bare_root_key :
    let path := " .['$' ].$".toList
    let tokenized : TokenizedPath := ⟨path,[⟨['$'],0,false,true⟩,⟨['$'],1,true,false⟩]⟩
    tokenize {autoRoot:=false} path = .ok tokenized ∧
      ((∃ token, tokenized.tokens.head? = some token ∧ token.isRoot = true) ↔
        (Text.lead path).head? = some '$' ∨
          ∃ bracketed raw later, Mode.run .top path = .ok (.raw bracketed raw :: later) ∧
            (Piece.raw bracketed raw).fragment.text = ['$']) ∧
      ∀ token ∈ tokenized.tokens.tail, token.isRoot = false := by
  intro path tokenized
  have accepted : tokenize {autoRoot:=false} path = .ok tokenized := by decide +kernel
  exact ⟨accepted,tokenize_bare_root rfl accepted⟩

theorem root_behind_dot : ¬∀ (options : Options) (path : Text) (tokenized : TokenizedPath),
    options.autoRoot = false → tokenize options path = .ok tokenized →
      ((∃ token, tokenized.tokens.head? = some token ∧ token.isRoot = true) ↔
        (path.dropWhile (· == ' ')).head? = some '$') ∧
      ∀ token ∈ tokenized.tokens.tail, token.isRoot = false := by
  intro leading
  have accepted : tokenize {autoRoot:=false} ['.','$'] =
      .ok ⟨['.','$'],[⟨['$'],0,true,false⟩]⟩ := by decide +kernel
  have first := (leading _ _ _ rfl accepted).1.mp ⟨_,rfl,rfl⟩
  revert first
  decide

end PathExpr
