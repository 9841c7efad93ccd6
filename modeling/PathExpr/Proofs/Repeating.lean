import PathExpr.Proofs.Calls
import PathExpr.Proofs.Rooting

-- A tokenization repeated on the path in use. Calls are looked for in the path as it is
-- given, so that the second time the spliced root is looked at together with the path.
namespace PathExpr

namespace Admission

theorem rooted_rooted (path : Text) : rooted (rooted path) = rooted path := by
  have anchored : ['$'].isPrefixOf (rooted path) = true := by
    unfold rooted
    split
    · assumption
    · simp
  rw [rooted,if_pos anchored]

theorem callFault_relative {path : Text} (relative : path.head? ≠ some '$') (free : callFault? path = none) :
    callFault? (rooted path) = if path.head? = some '(' then some (.functionCall 1) else none := by
  have uncalled : callee? path = none := Option.map_eq_none_iff.mp free
  rw [rooted_relative relative]
  cases path with
  | nil => rfl
  | cons c rest =>
    by_cases opens : c = '('
    · subst opens
      rfl
    · have dotted : isCall ('.',c) = false := by simp [isCall,opens]
      have spliced : callee? ('$' :: '.' :: c :: rest) = none :=
        (callee_cons _ _ _).mpr ⟨rfl,(callee_cons _ _ _).mpr ⟨dotted,uncalled⟩⟩
      simp [callFault?,spliced,opens]

end Admission

namespace Options

variable {options : Options} {path : Text}

theorem used_used (options : Options) (path : Text) : options.used (options.used path) = options.used path := by
  unfold used
  split
  · exact Admission.rooted_rooted path
  · rfl

theorem callFault_used (free : options.callFault? path = none) :
    options.callFault? (options.used path) =
      if options.autoRoot ∧ options.checkCalls ∧ path.head? = some '(' then some (.functionCall 1)
      else none := by
  by_cases checked : options.checkCalls = true
  · rw [callFault?,if_pos checked] at free ⊢
    by_cases auto : options.autoRoot = true
    · rw [used,if_pos auto]
      by_cases anchored : path.head? = some '$'
      · obtain ⟨rest,rfl⟩ := List.head?_eq_some_iff.mp anchored
        have same : Admission.rooted ('$' :: rest) = '$' :: rest := by simp [Admission.rooted]
        rw [same,free]
        simp
      · rw [Admission.callFault_relative anchored free]
        simp [auto,checked]
    · rw [used,if_neg auto,free]
      simp [auto]
  · rw [callFault?,if_neg checked]
    simp [checked]

end Options

theorem tokenize_repeated {options : Options} {path : Text} {tokenized : TokenizedPath}
    (unlimited : options.maxLength = none) (accepted : tokenize options path = .ok tokenized) :
    tokenize options tokenized.path =
      if options.autoRoot ∧ options.checkCalls ∧ path.head? = some '(' then
        .error (.unusable tokenized.path (.functionCall 1))
      else .ok tokenized := by
  obtain ⟨pieces,ran,rfl⟩ := tokenize_accepted accepted
  have called := Options.callFault_used (tokenize_admitted accepted)
  have path_used : (TokenizedPath.ofPieces (options.used path) pieces).path = options.used path := rfl
  rw [path_used]
  split
  · rename_i opened
    rw [if_pos opened] at called
    exact tokenize_refused unlimited called
  · rename_i closed
    rw [if_neg closed] at called
    rw [← Options.used_used] at ran
    rw [tokenize_ran unlimited called ran,Options.used_used]

theorem tokenize_repeated_groups :
    let group : TokenizedPath := ⟨"$.(a).b".toList,
      [⟨['$'],0,false,false⟩,⟨"(a)".toList,1,false,false⟩,⟨['b'],2,true,false⟩]⟩
    let filter : TokenizedPath := ⟨"$.a[?(@.b)]".toList,
      [⟨['$'],0,false,false⟩,⟨['a'],1,false,false⟩,⟨"@.b".toList,2,true,true⟩]⟩
    tokenize {} "(a).b".toList = .ok group ∧
      tokenize {} "$.(a).b".toList = .error (.unusable "$.(a).b".toList (.functionCall 1)) ∧
      tokenize {checkCalls:=false} "(a).b".toList = .ok group ∧
      tokenize {checkCalls:=false} "$.(a).b".toList = .ok group ∧
      tokenize {} "a[?(@.b)]".toList = .ok filter ∧ tokenize {} "$.a[?(@.b)]".toList = .ok filter := by
  intro group filter
  have checked : tokenize {} "(a).b".toList = .ok group := by decide +kernel
  have unchecked : tokenize {checkCalls:=false} "(a).b".toList = .ok group := by decide +kernel
  have filtered : tokenize {} "a[?(@.b)]".toList = .ok filter := by decide +kernel
  exact ⟨checked,tokenize_repeated rfl checked,unchecked,tokenize_repeated rfl unchecked,
    filtered,tokenize_repeated rfl filtered⟩

end PathExpr
