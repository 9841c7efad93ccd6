import Mathlib.Data.Nat.Count
import PathExpr.Proofs.Cursor
import PathExpr.Proofs.Excerpts
import PathExpr.Proofs.Mode.Reads

-- Where a recursive descent comes from: two dots next to each other between fragments
-- give one each. Any other token that reads like it is a plain fragment of two dots.
namespace PathExpr

-- The first dot is not escaped, and in front of it everything opened is closed again.
def Text.DotPair (path : Text) (index : Nat) : Prop :=
  (path.drop index).take 2 = ['.','.'] ∧ ¬Odd (Text.slashes (path.take index)) ∧
    (Cursor.start (path.take index)).split.1.isOk = true

instance (path : Text) : DecidablePred path.DotPair := fun _ => inferInstanceAs (Decidable (_ ∧ _))

def Piece.isMimic : Piece → Bool
  | raw false text => Sugar.clean text == ['.','.']
  | _ => false

theorem Piece.fragment_descent (piece : Piece) :
    piece.fragment = .descent ↔ piece = .descent ∨ piece.isMimic = true := by
  cases piece with
  | root => simp [fragment,isMimic,Fragment.root,Fragment.descent]
  | descent => simp [fragment]
  | raw bracketed text => cases bracketed <;> simp [fragment,isMimic,Fragment.descent]

theorem Piece.count_descent (pieces : List Piece) :
    (pieces.map fragment).count .descent = pieces.count descent + pieces.countP isMimic := by
  induction pieces with
  | nil => rfl
  | cons piece later ih =>
    simp only [List.map_cons,List.count_cons,List.countP_cons,beq_iff_eq,fragment_descent,ih]
    by_cases two : piece = descent
    · subst two
      simp [isMimic]
      omega
    · simp [two]
      omega

def Piece.Dotless : Piece → Prop
  | raw false text => '.' ∉ text
  | _ => True

theorem Piece.Dotless.no_mimic {piece : Piece} (dotless : piece.Dotless) : ¬piece.isMimic = true := by
  cases piece with
  | root | descent => exact Bool.false_ne_true
  | raw bracketed text =>
    cases bracketed with
    | true => exact Bool.false_ne_true
    | false =>
      intro mimics
      have cleaned : Sugar.clean text = ['.','.'] := by simpa [isMimic] using mimics
      have within := Sugar.clean_sublist text
      rw [cleaned] at within
      exact dotless (within.subset (by simp))

namespace Mode

variable {mode next last : Mode} {c : Char} {path front text rest : Text} {pieces earlier before after : List Piece}

theorem enter_no_descent (c : Char) : .descent ∉ (enter c).1 := by
  fun_cases enter c <;> simp

theorem enter_dot (lone : (enter c).2 = dot) : c = '.' := by
  fun_cases enter c <;> simp_all [enter]

theorem step_descent (stepped : Step mode c pieces next) :
    mode = dot ∧ c = '.' ∧ pieces = [.descent] ∨ ¬(mode = dot ∧ c = '.') ∧ .descent ∉ pieces := by
  cases stepped with
  | enter idle =>
    refine .inr ⟨?_,enter_no_descent c⟩
    rintro ⟨rfl,rfl⟩
    simp at idle
  | descend => exact .inl ⟨rfl,rfl,rfl⟩
  | leave => exact .inr ⟨by simp,by simpa using enter_no_descent c⟩
  | close | slash | copy | openGroup | copyGroup | closeGroup => exact .inr (by simp)

-- A lone dot comes from a dot that is not escaped, outside of what is still open. What was
-- open in front of it comes out whole.
theorem step_lone (stepped : Step mode c pieces next) (lone : next = dot) :
    c = '.' ∧ mode.pending = false ∧ mode.finish = .ok pieces := by
  cases stepped with
  | enter idle =>
    obtain rfl := enter_dot lone
    refine ⟨rfl,?_⟩
    rcases idle with rfl | ⟨rfl | rfl,other⟩
    · exact ⟨rfl,rfl⟩
    · exact absurd rfl other
    · exact absurd rfl other
  | leave =>
    obtain rfl := enter_dot lone
    exact ⟨rfl,rfl,rfl⟩
  | descend | close | slash | copy | openGroup | copyGroup | closeGroup => cases lone

theorem step_settled (settled : mode.pending = false) (finished : mode.finish = .ok pieces) :
    mode.step '.' = some (pieces,dot) ∨ mode = dot ∨ mode = descent := by
  rcases finish_cases finished with ⟨rfl | repeated,rfl⟩ | ⟨escaped,raw,rfl,rfl⟩
  · exact .inl rfl
  · exact .inr repeated
  · obtain rfl : escaped = false := settled
    exact .inl rfl

theorem Reads.finish (led : Reads top front earlier mode) :
    (Cursor.start front).split.1.isOk = true ↔ ∃ pieces, mode.finish = .ok pieces := by
  have ran := led.run_all
  cases finished : mode.finish with
  | ok pieces =>
    rw [finished,behind_ok] at ran
    rw [Cursor.split_ran ran]
    simp [Except.isOk,Except.toBool]
  | error halt =>
    rw [finished,behind_error] at ran
    rw [Cursor.split_halted ran]
    simp [Except.isOk,Except.toBool]

theorem Reads.even (led : Reads top front earlier mode) (settled : mode.pending = false)
    (finished : mode.finish = .ok pieces) : ¬Odd front.slashes := by
  have outside : mode.grouped = false := by
    rcases finish_cases finished with ⟨rfl | rfl | rfl,_⟩ | ⟨_,_,rfl,_⟩ <;> rfl
  rw [← led.trailing.slashes outside,settled]
  exact Bool.false_ne_true

theorem Reads.lone_iff (led : Reads top front earlier mode) (stepped : mode.step '.' = some (pieces,next))
    (once : mode ≠ dot) : next = dot ↔ ¬Odd front.slashes ∧ (Cursor.start front).split.1.isOk = true := by
  rw [led.finish]
  constructor
  · intro lone
    obtain ⟨_,settled,finished⟩ := step_lone (step_sound stepped) lone
    exact ⟨led.even settled finished,_,finished⟩
  · rintro ⟨even,_,finished⟩
    rcases step_settled (led.trailing.settled even) finished with same | two | three
    · rw [same] at stepped
      cases stepped
      rfl
    · exact absurd two once
    · rw [three] at stepped
      cases stepped

-- The pair starts with the lone dot. Were that itself the second of two, a third would be refused.
theorem Reads.pair_iff (led : Reads top front earlier mode) (stepped : mode.step c = some (pieces,next))
    (reads : Reads next rest after last) :
    Text.DotPair (front ++ c :: rest) front.length ↔ next = dot ∧ rest.head? = some '.' := by
  have two : (c :: rest).take 2 = ['.','.'] ↔ c = '.' ∧ rest.head? = some '.' := by cases rest <;> simp
  rw [Text.DotPair,List.drop_left,List.take_left,two]
  constructor
  · rintro ⟨⟨rfl,second⟩,between⟩
    by_cases once : mode = dot
    · subst once
      cases stepped
      obtain ⟨later,rfl⟩ := List.head?_eq_some_iff.mp second
      cases reads with
      | cons third => cases third
    · exact ⟨(led.lone_iff stepped once).mpr between,second⟩
  · rintro ⟨lone,second⟩
    obtain rfl := (step_lone (step_sound stepped) lone).1
    have once : mode ≠ dot := by
      rintro rfl
      cases stepped
      cases lone
    exact ⟨⟨rfl,second⟩,(led.lone_iff stepped once).mp lone⟩

-- Counted from any place on. Behind a lone dot, the pair it is half of has been counted before.
theorem Reads.descents (led : Reads top front earlier mode) (reads : Reads mode rest pieces last) :
    pieces.count .descent = Nat.count (fun place => Text.DotPair (front ++ rest) (front.length + place)) rest.length +
      if mode = dot ∧ rest.head? = some '.' then 1 else 0 := by
  induction reads generalizing front earlier with
  | nil => simp
  | @cons mode next last c rest first later stepped reads ih =>
    have here := led.trans (.cons stepped .nil)
    have pair := led.pair_iff stepped reads
    have counted : first.count .descent = if mode = dot ∧ c = '.' then 1 else 0 := by
      rcases step_descent (step_sound stepped) with ⟨rfl,rfl,rfl⟩ | ⟨other,none⟩
      · rfl
      · rw [if_neg other,List.count_eq_zero_of_not_mem none]
    have shifted : (fun place => Text.DotPair (front ++ [c] ++ rest) ((front ++ [c]).length + place)) =
        fun place => Text.DotPair (front ++ c :: rest) (front.length + (place + 1)) := by
      funext place
      simp [Nat.add_assoc,Nat.add_comm 1 place]
    rw [List.count_append,ih here,List.length_cons,Nat.count_succ']
    simp only [Nat.add_zero,pair,counted,shifted,List.head?_cons,Option.some.injEq]
    omega

theorem Reads.given (reads : Reads mode text (before ++ .descent :: after) last) :
    ∃ front rest, text = front ++ '.' :: rest ∧ Reads mode front before dot := by
  generalize joined : before ++ .descent :: after = pieces at reads
  induction reads generalizing before with
  | nil => simp at joined
  | @cons mode next last c rest first later stepped reads ih =>
    have onward {more : List Piece} (same : more ++ .descent :: after = later) :
        ∃ front tail, c :: rest = front ++ '.' :: tail ∧ Reads mode front (first ++ more) dot := by
      obtain ⟨front,tail,rfl,led⟩ := ih same
      exact ⟨c :: front,tail,rfl,.cons stepped led⟩
    rcases List.append_eq_append_iff.mp joined with ⟨others,rfl,back⟩ | ⟨others,rfl,same⟩
    · cases others with
      | nil =>
        simpa using @onward [] back
      | cons piece others =>
        obtain ⟨rfl,_⟩ := List.cons.inj back
        rcases step_descent (step_sound stepped) with ⟨rfl,rfl,alone⟩ | ⟨_,none⟩
        · obtain rfl : before = [] := by
            have lengths := congrArg List.length alone
            simp only [List.length_append,List.length_cons,List.length_nil] at lengths
            exact List.eq_nil_of_length_eq_zero (by omega)
          exact ⟨[],rest,rfl,.nil⟩
        · exact absurd (by simp) none
    · exact onward same.symm

theorem Reads.lone_behind (led : Reads top front earlier dot) :
    ∃ shorter, front = shorter ++ ['.'] ∧ ¬Odd shorter.slashes ∧ Mode.run top shorter = .ok earlier := by
  rcases List.eq_nil_or_concat front with rfl | ⟨shorter,c,rfl⟩
  · cases led
  · rw [List.concat_eq_append] at led ⊢
    obtain ⟨pieces,mode,later,one,two,rfl⟩ := led.cut
    cases two with
    | @cons _ _ _ _ _ first _ stepped reads =>
      cases reads
      obtain ⟨rfl,settled,finished⟩ := step_lone (step_sound stepped) rfl
      refine ⟨shorter,rfl,one.even settled finished,?_⟩
      rw [one.run_all,finished,behind_ok,List.append_nil]

theorem finish_no_descent (finished : mode.finish = .ok pieces) : .descent ∉ pieces := by
  intro member
  obtain ⟨_,_,_,same⟩ := finish_piece finished member
  cases same

theorem run_pair (settled : ¬Odd front.slashes) (ran : run top front = .ok before)
    (joined : run top (front ++ '.' :: '.' :: rest) = .ok pieces) : ∃ after, pieces = before ++ .descent :: after := by
  obtain ⟨earlier,mode,last,reads,finished,rfl⟩ := run_ok ran
  rw [reads.run] at joined
  rcases step_settled (reads.trailing.settled settled) finished with stepped | rfl | rfl
  · rw [run_cons _ stepped,run_second_dot,behind_behind,behind_behind] at joined
    obtain ⟨after,_,rfl⟩ := behind_accepted joined
    exact ⟨after,by simp⟩
  · rw [run_second_dot,run_refused rest rfl] at joined
    cases joined
  · rw [run_refused _ rfl] at joined
    cases joined

theorem run_descent_iff (ran : run top path = .ok pieces) :
    (∃ after, pieces = before ++ .descent :: after) ↔
      ∃ index, path.DotPair index ∧ run top (path.take index) = .ok before := by
  constructor
  · rintro ⟨after,rfl⟩
    obtain ⟨read,mode,last,reads,finished,joined⟩ := run_ok ran
    have within : ∃ more, read = before ++ .descent :: more := by
      rcases List.append_eq_append_iff.mp joined with ⟨others,rfl,back⟩ | ⟨others,rfl,back⟩
      · cases others with
        | nil => exact absurd (by rw [List.nil_append] at back; simp [← back]) (finish_no_descent finished)
        | cons piece others =>
          obtain ⟨rfl,_⟩ := List.cons.inj back
          exact ⟨others,rfl⟩
      · exact absurd (by rw [back]; simp) (finish_no_descent finished)
    obtain ⟨more,rfl⟩ := within
    obtain ⟨front,rest,rfl,led⟩ := reads.given
    obtain ⟨shorter,rfl,even,front⟩ := led.lone_behind
    have cut : (shorter ++ ['.'] ++ '.' :: rest).take shorter.length = shorter := by simp
    refine ⟨shorter.length,⟨by simp,?_,?_⟩,?_⟩
    · rwa [cut]
    · rw [cut,Cursor.split_ran front]
      rfl
    · rwa [cut]
  · rintro ⟨index,⟨two,even,_⟩,front⟩
    obtain ⟨rest,dots⟩ : ∃ rest, path.drop index = '.' :: '.' :: rest := by
      have joined := List.take_append_drop 2 (path.drop index)
      rw [two] at joined
      exact ⟨_,joined.symm⟩
    rw [← List.take_append_drop index path,dots] at ran
    exact run_pair even front ran

theorem count_descents (ran : run top path = .ok pieces) :
    pieces.count .descent = Nat.count path.DotPair path.length := by
  obtain ⟨read,mode,last,reads,finished,rfl⟩ := run_ok ran
  have counted := Reads.descents .nil reads
  rw [List.count_append,List.count_eq_zero_of_not_mem (finish_no_descent finished)]
  simpa using counted

def Dotless : Mode → Prop
  | inside false _ raw => '.' ∉ raw
  | group .. => False
  | _ => True

theorem enter_dotless (shut : c ≠ '(') : (enter c).2.Dotless ∧ ∀ piece ∈ (enter c).1, piece.Dotless := by
  fun_cases enter c <;> simp_all [Dotless,Piece.Dotless]
  rename_i dot _ _ _
  exact fun same => dot same.symm

theorem step_dotless (dotless : mode.Dotless) (shut : c ≠ '(') (plain : c = '.' → mode.pending = false)
    (stepped : Step mode c pieces next) : next.Dotless ∧ ∀ piece ∈ pieces, piece.Dotless := by
  cases stepped with
  | enter => exact enter_dotless shut
  | descend => exact ⟨trivial,by simp [Piece.Dotless]⟩
  | leave =>
    obtain ⟨entered,free⟩ := enter_dotless shut
    refine ⟨entered,fun piece member => ?_⟩
    rcases List.mem_cons.mp member with rfl | member
    · exact dotless
    · exact free piece member
  | close => exact ⟨trivial,by simp [Piece.Dotless]⟩
  | @slash bracketed => cases bracketed <;> exact ⟨dotless,by simp⟩
  | @copy bracketed escaped raw _ kept free =>
    cases bracketed with
    | true => exact ⟨trivial,by simp⟩
    | false =>
      have other : c ≠ '.' := by
        rintro rfl
        rcases free with rfl | ⟨free,_⟩
        · cases plain rfl
        · exact absurd ((isStop_plain '.').mpr (.inr rfl)) (by simp [free])
      have dotless : '.' ∉ raw := dotless
      exact ⟨by simp [Dotless,dotless,other.symm],by simp⟩
  | openGroup => exact absurd rfl shut
  | copyGroup | closeGroup => exact dotless.elim

theorem Reads.dotless {read : Text} (trails : Trails read mode) (dotless : mode.Dotless) (shut : '(' ∉ text)
    (plain : ∀ front rest, text = front ++ '.' :: rest → ¬Odd (Text.slashes (read ++ front)))
    (reads : Reads mode text pieces next) : next.Dotless ∧ ∀ piece ∈ pieces, piece.Dotless := by
  induction reads generalizing read with
  | nil => exact ⟨dotless,by simp⟩
  | @cons mode next last c rest first later stepped reads ih =>
    have stepped := step_sound stepped
    have settled : c = '.' → mode.pending = false := by
      rintro rfl
      have even := plain [] rest rfl
      rw [List.append_nil] at even
      exact trails.settled even
    obtain ⟨closed,shut⟩ := List.ne_and_not_mem_of_not_mem_cons shut
    obtain ⟨there,free⟩ := step_dotless dotless closed.symm settled stepped
    obtain ⟨last,others⟩ := ih (step_trails trails stepped) there shut fun front tail same => by
      have even := plain (c :: front) tail (by rw [same]; rfl)
      rwa [← List.append_cons]
    refine ⟨last,fun piece member => ?_⟩
    exact (List.mem_append.mp member).elim (free piece) (others piece)

theorem no_mimic (ran : run top path = .ok pieces) (shut : '(' ∉ path)
    (plain : ∀ index, path[index]? = some '.' → ¬Odd (Text.slashes (path.take index))) :
    pieces.countP Piece.isMimic = 0 := by
  obtain ⟨read,mode,last,reads,finished,rfl⟩ := run_ok ran
  have even (front rest : Text) (joined : path = front ++ '.' :: rest) : ¬Odd front.slashes := by
    have here := plain front.length (by simp [joined])
    rwa [joined,List.take_left] at here
  obtain ⟨dotless,free⟩ := reads.dotless trails_top trivial shut (by simpa using even)
  have ended : ∀ piece ∈ last, piece.Dotless := by
    intro piece member
    obtain ⟨_,_,rfl,rfl⟩ := finish_piece finished member
    exact dotless
  rw [List.countP_eq_zero]
  intro piece member
  exact ((List.mem_append.mp member).elim (free piece) (ended piece)).no_mimic

end Mode

structure TokenizedPath.Descended (tokenized : TokenizedPath) (pieces : List Piece) : Prop where
  source : ∀ token ∈ tokenized.tokens, token.origin = .descent ↔
    (∃ index, Text.DotPair tokenized.path index ∧
      (Cursor.start (tokenized.path.take index)).split.1 = .ok (tokenized.origins.take token.position)) ∨
    ∃ piece, pieces[token.position]? = some piece ∧ piece.isMimic = true
  count : tokenized.origins.count .descent =
    Nat.count (Text.DotPair tokenized.path) tokenized.path.length + pieces.countP Piece.isMimic
  genuine : '(' ∉ tokenized.path →
    (∀ index, tokenized.path[index]? = some '.' → ¬Odd (Text.slashes (tokenized.path.take index))) →
    pieces.countP Piece.isMimic = 0

theorem tokenize_descents {options : Options} {path : Text} {tokenized : TokenizedPath}
    (accepted : tokenize options path = .ok tokenized) :
    ∃ pieces, Mode.run .top (options.used path) = .ok pieces ∧
      tokenized = .ofPieces (options.used path) pieces ∧ tokenized.Descended pieces := by
  obtain ⟨pieces,ran,rfl⟩ := tokenize_accepted accepted
  refine ⟨pieces,ran,rfl,⟨?_,?_,Mode.no_mimic ran⟩⟩
  · intro token member
    obtain ⟨piece,found,origin⟩ := TokenizedPath.ofPieces_origin member
    rw [origin,Piece.fragment_descent,TokenizedPath.ofPieces_origins,← List.map_take,found]
    refine or_congr ?_ (by simp)
    constructor
    · rintro rfl
      obtain ⟨within,here⟩ := List.getElem?_eq_some_iff.mp found
      have cut : pieces = pieces.take token.position ++ .descent :: pieces.drop (token.position + 1) := by
        rw [← here,List.getElem_cons_drop,List.take_append_drop]
      obtain ⟨index,pair,front⟩ := (Mode.run_descent_iff ran).mp ⟨_,cut⟩
      exact ⟨index,pair,Cursor.split_ran front⟩
    · rintro ⟨index,pair,front⟩
      obtain ⟨before,front,same⟩ := Cursor.split_accepted front
      obtain ⟨after,rfl⟩ := (Mode.run_descent_iff ran).mpr ⟨index,pair,front⟩
      have within := (List.getElem?_eq_some_iff.mp found).1
      have place : token.position = before.length := by
        have lengths := congrArg List.length same
        rw [List.length_map,List.length_map,List.length_take] at lengths
        omega
      rw [place,List.getElem?_append_right (Nat.le_refl _),Nat.sub_self] at found
      exact (Option.some.inj found).symm
  · rw [TokenizedPath.ofPieces_origins,Piece.count_descent,Mode.count_descents ran]
    rfl

theorem tokenize_descents_mimicked :
    let path := "$..a.\\.\\..?(..)".toList
    let tokenized : TokenizedPath := ⟨path,[⟨['$'],0,false,false⟩,⟨['.','.'],1,false,false⟩,⟨['a'],2,false,false⟩,
      ⟨['.','.'],3,false,false⟩,⟨['.','.'],4,true,false⟩]⟩
    tokenize {} path = .ok tokenized ∧
      ∃ pieces, Mode.run .top (Options.used {} path) = .ok pieces ∧
        tokenized = .ofPieces (Options.used {} path) pieces ∧ tokenized.Descended pieces := by
  intro path tokenized
  have accepted : tokenize {} path = .ok tokenized := by decide +kernel
  exact ⟨accepted,tokenize_descents accepted⟩

-- Two escaped dots are a key of their own, and its token reads like a descent.
theorem descent_mimicked : ¬∀ (options : Options) (path : Text) (tokenized : TokenizedPath),
    tokenize options path = .ok tokenized →
      (∀ token ∈ tokenized.tokens, token.origin = .descent →
        ∃ index, Text.DotPair (options.used path) index ∧
          (Cursor.start ((options.used path).take index)).split.1 = .ok (tokenized.origins.take token.position)) ∧
      tokenized.origins.count .descent = Nat.count (Text.DotPair (options.used path)) (options.used path).length := by
  intro genuine
  have accepted : tokenize {} "$.\\.\\.".toList =
      .ok ⟨"$.\\.\\.".toList,[⟨['$'],0,false,false⟩,⟨['.','.'],1,true,false⟩]⟩ := by decide +kernel
  have counted := (genuine _ _ _ accepted).2
  revert counted
  decide +kernel

end PathExpr
