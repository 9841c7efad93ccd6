import Mathlib.Data.List.Infix
import PathExpr.Proofs.Rooting
import PathExpr.TokenizedPath.Session

-- What a session leaves of a tokenized path: a front of its tokens, each as it was. The
-- lists it gives away are copies, and nothing that is done to them comes back.
namespace PathExpr

namespace TokenizedPath

variable {tokenized : TokenizedPath} {command : Command}

def Reply.isRemoved : Reply → Bool
  | .removed _ => true
  | _ => false

def removals (replies : List Reply) : Nat := replies.countP Reply.isRemoved

def shortened (tokenized : TokenizedPath) (count : Nat) : TokenizedPath :=
  {tokenized with tokens := tokenized.tokens.take (tokenized.size - count)}

theorem shortened_zero (tokenized : TokenizedPath) : tokenized.shortened 0 = tokenized := by
  simp [shortened,size]

theorem shortened_size (tokenized : TokenizedPath) (count : Nat) :
    (tokenized.shortened count).size = tokenized.size - count := by
  simp [shortened,size]

theorem shortened_shortened (tokenized : TokenizedPath) (first second : Nat) :
    (tokenized.shortened first).shortened second = tokenized.shortened (first + second) := by
  have left : tokenized.size - first - second = tokenized.size - (first + second) := by omega
  rw [shortened,shortened_size,left]
  simp only [shortened,List.take_take]
  congr 2
  omega

theorem perform_exhausted (none : tokenized.tokens = []) :
    tokenized.perform .removeLast = (.failed .noTokenLeft,tokenized) := by
  simp [perform,removeLast,none]

theorem perform_removes {token : Token} (last : tokenized.tokens.getLast? = some token) :
    tokenized.perform .removeLast = (.removed token,tokenized.shortened 1) := by
  simp only [perform,removeLast,last,shortened,size,List.dropLast_eq_take]

theorem perform_shortened (tokenized : TokenizedPath) (command : Command) :
    removals [(tokenized.perform command).1] ≤ tokenized.size ∧
      (tokenized.perform command).2 = tokenized.shortened (removals [(tokenized.perform command).1]) := by
  cases command with
  | removeLast =>
    cases last : tokenized.tokens.getLast? with
    | none =>
      rw [perform_exhausted (List.getLast?_eq_none_iff.mp last)]
      exact ⟨Nat.zero_le _,(shortened_zero tokenized).symm⟩
    | some token =>
      have some : 0 < tokenized.tokens.length := List.length_pos_of_mem (List.mem_of_getLast? last)
      rw [perform_removes last]
      exact ⟨some,rfl⟩
  | _ => exact ⟨Nat.zero_le _,(shortened_zero tokenized).symm⟩

theorem session_shortened (tokenized : TokenizedPath) (commands : List Command) :
    removals (tokenized.session commands).1 ≤ tokenized.size ∧
      (tokenized.session commands).2 = tokenized.shortened (removals (tokenized.session commands).1) := by
  induction commands generalizing tokenized with
  | nil => exact ⟨Nat.zero_le _,(shortened_zero tokenized).symm⟩
  | cons command later ih =>
    obtain ⟨bound,after⟩ := perform_shortened tokenized command
    obtain ⟨others,last⟩ := ih (tokenized.perform command).2
    have counted : removals (tokenized.session (command :: later)).1 =
        removals [(tokenized.perform command).1] + removals ((tokenized.perform command).2.session later).1 := by
      rw [removals,removals,removals,← List.countP_append]
      rfl
    have left : (tokenized.session (command :: later)).2 = ((tokenized.perform command).2.session later).2 := rfl
    rw [left,counted,last]
    rw [after] at others ⊢
    rw [shortened_size] at others
    exact ⟨by omega,shortened_shortened _ _ _⟩

-- Lists that are changed where they stand, told apart by their places. One is a path's
-- own list of its tokens, the others are those it has handed out.
structure Holding where
  path : Text
  lists : List (List Token)
  own : Nat
  handed : List Nat

inductive Move where
  | command (command : Command)
  | clear (handed : Nat)

def Move.command? : Move → Option Command
  | .command command => some command
  | .clear _ => none

namespace Holding

def start (tokenized : TokenizedPath) : Holding := ⟨tokenized.path,[tokenized.tokens],0,[]⟩

def held (holding : Holding) : TokenizedPath := ⟨holding.path,(holding.lists[holding.own]?).getD []⟩

def put (holding : Holding) (place : Nat) (tokens : List Token) : Holding :=
  {holding with lists := holding.lists.set place tokens}

def make (holding : Holding) : Move → List Reply × Holding
  | .command .tokens => ([.tokens holding.held.tokens],
    {holding with lists := holding.lists ++ [holding.held.tokens],
                  handed := holding.handed ++ [holding.lists.length]})
  | .command command =>
    let (reply,after) := holding.held.perform command
    ([reply],holding.put holding.own after.tokens)
  | .clear handed =>
    match holding.handed[handed]? with
    | some place => ([],holding.put place [])
    | none => ([],holding)

def session (holding : Holding) : List Move → List Reply × Holding
  | [] => ([],holding)
  | move :: later =>
    let (reply,after) := holding.make move
    let (replies,last) := after.session later
    (reply ++ replies,last)

structure Sound (holding : Holding) : Prop where
  own : holding.own < holding.lists.length
  apart : holding.own ∉ holding.handed

variable {holding : Holding}

theorem start_sound (tokenized : TokenizedPath) : (start tokenized).Sound :=
  ⟨Nat.zero_lt_one,List.not_mem_nil⟩

theorem put_sound (sound : holding.Sound) (place : Nat) (tokens : List Token) :
    (holding.put place tokens).Sound :=
  ⟨by rw [put,List.length_set]; exact sound.own,sound.apart⟩

theorem put_own (sound : holding.Sound) (tokens : List Token) :
    (holding.put holding.own tokens).held = ⟨holding.path,tokens⟩ := by
  simp [put,held,sound.own]

theorem put_other {place : Nat} (other : place ≠ holding.own) (tokens : List Token) :
    (holding.put place tokens).held = holding.held := by
  simp [put,held,List.getElem?_set_ne other]

theorem put_held (sound : holding.Sound) : holding.put holding.own holding.held.tokens = holding := by
  have own := sound.own
  simp [put,held,own]

theorem make_command (sound : holding.Sound) (command : Command) :
    (holding.make (.command command)).1 = [(holding.held.perform command).1] ∧
      (holding.make (.command command)).2.held = (holding.held.perform command).2 ∧
      (holding.make (.command command)).2.Sound := by
  have path : (holding.held.perform command).2.path = holding.path :=
    (perform_keeps holding.held command).1
  cases command with
  | tokens =>
    refine ⟨rfl,?_,?_,?_⟩
    · simp [make,held,perform,List.getElem?_append_left sound.own]
    · simp only [make,List.length_append]
      exact Nat.lt_add_right _ sound.own
    · simp only [make,List.mem_append,List.mem_singleton,not_or]
      exact ⟨sound.apart,Nat.ne_of_lt sound.own⟩
  | _ =>
    refine ⟨rfl,(put_own sound _).trans ?_,put_sound sound _ _⟩
    rw [← path]
    rfl

theorem make_clear (sound : holding.Sound) (handed : Nat) :
    (holding.make (.clear handed)).1 = [] ∧ (holding.make (.clear handed)).2.held = holding.held ∧
      (holding.make (.clear handed)).2.Sound := by
  simp only [make]
  split
  · rename_i place found
    have other : place ≠ holding.own := by
      rintro rfl
      exact sound.apart (List.mem_of_getElem? found)
    exact ⟨rfl,put_other other [],put_sound sound _ _⟩
  · exact ⟨rfl,rfl,sound⟩

theorem session_commands (sound : holding.Sound) (moves : List Move) :
    (holding.session moves).1 = (holding.held.session (moves.filterMap Move.command?)).1 ∧
      (holding.session moves).2.held = (holding.held.session (moves.filterMap Move.command?)).2 ∧
      (holding.session moves).2.Sound := by
  induction moves generalizing holding with
  | nil => exact ⟨rfl,rfl,sound⟩
  | cons move later ih =>
    cases move with
    | command command =>
      obtain ⟨reply,after,kept⟩ := make_command sound command
      obtain ⟨replies,last,still⟩ := ih kept
      rw [after] at replies last
      simp only [session,reply,replies,List.filterMap_cons,Move.command?]
      exact ⟨rfl,last,still⟩
    | clear handed =>
      obtain ⟨reply,after,kept⟩ := make_clear sound handed
      obtain ⟨replies,last,still⟩ := ih kept
      rw [after] at replies last
      simp only [session,reply,replies,List.filterMap_cons,Move.command?]
      exact ⟨rfl,last,still⟩

end Holding

structure Kept (options : Options) (path : Text) (original : TokenizedPath) (removed : Nat)
    (now : Holding) : Prop where
  bound : removed ≤ original.size
  left : now.held.tokens = original.tokens.take (original.size - removed)
  positions : now.held.tokens.map Token.position = List.range (original.size - removed)
  size : (now.make (.command .size)).1 = [.size (original.size - removed)]
  tokens : (now.make (.command .tokens)).1 = [.tokens now.held.tokens]
  fragments : (now.make (.command .fragments)).1 = [.fragments (now.held.tokens.map Token.fragment)]
  used : (now.make (.command .path)).1 = [.text (options.used path)]
  ending : ∀ index token, now.held.tokens[index]? = some token →
    (token.isEnd = true ↔ removed = 0 ∧ index + 1 = original.size)
  removing : ∀ token, now.held.tokens.getLast? = some token →
    (now.make (.command .removeLast)).1 = [.removed token]
  exhausted : now.held.tokens = [] →
    now.make (.command .removeLast) = ([.failed .noTokenLeft],now)
  rooted : options.autoRoot = true → 0 < original.size ∧
    (∀ index token, now.held.tokens[index]? = some token → (token.isRoot = true ↔ index = 0)) ∧
    ∀ token, now.held.tokens.head? = some token → token.fragment = ['$'] ∧ token.isArrayIndex = false

theorem token_at {path : Text} {pieces : List Piece} {count index : Nat} {token : Token}
    (found : ((ofPieces path pieces).tokens.take count)[index]? = some token) :
    index < count ∧ ∃ piece, pieces[index]? = some piece ∧
      token = ⟨piece.fragment.text,index,index + 1 == pieces.length,piece.fragment.bracketed⟩ := by
  rw [List.getElem?_take] at found
  split at found
  · rename_i within
    rw [ofPieces,Token.ofFragments_at,List.getElem?_map,List.length_map] at found
    obtain ⟨fragment,mapped,rfl⟩ := Option.map_eq_some_iff.mp found
    obtain ⟨piece,placed,rfl⟩ := Option.map_eq_some_iff.mp mapped
    exact ⟨within,piece,placed,rfl⟩
  · cases found

theorem run_used_rooted {options : Options} {path : Text} {pieces : List Piece} (rooted : options.autoRoot = true)
    (ran : Mode.run .top (options.used path) = .ok pieces) : ∃ later, pieces = .root :: later := by
  obtain ⟨rest,marked⟩ : ∃ rest, options.used path = '$' :: rest := by
    rw [Options.used,if_pos rooted]
    by_cases relative : path.head? = some '$'
    · obtain ⟨rest,rfl⟩ := List.head?_eq_some_iff.mp relative
      exact ⟨rest,rfl⟩
    · exact ⟨_,rooted_relative relative⟩
  rw [marked,Mode.run_root] at ran
  obtain ⟨later,_,rfl⟩ := Mode.behind_accepted ran
  exact ⟨later,rfl⟩

theorem kept_shortened {options : Options} {path : Text} {pieces : List Piece} {removed : Nat} {now : Holding}
    (ran : Mode.run .top (options.used path) = .ok pieces) (sound : now.Sound)
    (bound : removed ≤ (ofPieces (options.used path) pieces).size)
    (held : now.held = (ofPieces (options.used path) pieces).shortened removed) :
    Kept options path (ofPieces (options.used path) pieces) removed now := by
  have count := ofPieces_size (options.used path) pieces
  have left : now.held.tokens = (ofPieces (options.used path) pieces).tokens.take (pieces.length - removed) := by
    rw [held,shortened,count]
  have reply (command : Command) : (now.make (.command command)).1 = [(now.held.perform command).1] :=
    (Holding.make_command sound command).1
  refine ⟨bound,by rw [left,count],?_,?_,rfl,reply .fragments,?_,?_,?_,?_,?_⟩
  · rw [left,List.map_take,ofPieces_positions,List.take_range,count]
    simp
  · have size : now.held.size = (ofPieces (options.used path) pieces).size - removed := by
      rw [held,shortened_size]
    rw [reply,perform,size]
  · rw [reply,perform,held]
    rfl
  · intro index token found
    rw [left] at found
    obtain ⟨within,piece,_,rfl⟩ := token_at found
    rw [count]
    simp only [beq_iff_eq]
    omega
  · intro token last
    rw [reply,perform_removes last]
  · intro none
    have same : now.put now.own now.held.tokens = now := Holding.put_held sound
    simp only [Holding.make,perform_exhausted none,same]
  · intro rooted
    obtain ⟨later,rfl⟩ := run_used_rooted rooted ran
    refine ⟨by rw [count]; exact Nat.succ_pos _,?_,?_⟩
    · intro index token found
      rw [left] at found
      obtain ⟨_,piece,placed,rfl⟩ := token_at found
      cases index with
      | zero => cases placed; simp [Token.isRoot,Piece.fragment,Fragment.root]
      | succ index => simp [Token.isRoot]
    · intro token first
      rw [left,List.head?_eq_getElem?] at first
      obtain ⟨_,piece,placed,rfl⟩ := token_at first
      cases placed
      exact ⟨rfl,rfl⟩

theorem session_kept {options : Options} {path : Text} {tokenized : TokenizedPath}
    (accepted : tokenize options path = .ok tokenized) (moves : List Move) :
    Kept options path tokenized (removals ((Holding.start tokenized).session moves).1)
      ((Holding.start tokenized).session moves).2 := by
  obtain ⟨pieces,ran,rfl⟩ := tokenize_accepted accepted
  obtain ⟨replies,last,sound⟩ := Holding.session_commands (Holding.start_sound _) moves
  obtain ⟨bound,after⟩ := session_shortened (Holding.start _).held (moves.filterMap Move.command?)
  rw [← replies] at bound after
  rw [← last] at after
  exact kept_shortened ran sound bound after

theorem session_kept_cleared :
    let tokenized : TokenizedPath := ⟨"$.a['$']".toList,
      [⟨['$'],0,false,false⟩,⟨['a'],1,false,false⟩,⟨['$'],2,true,true⟩]⟩
    let moves : List Move := [.command .tokens,.clear 0,.command .removeLast,.command .tokens,.clear 1,
      .command .table,.command .removeLast,.command .fragments]
    tokenize {} "a['$']".toList = .ok tokenized ∧ removals ((Holding.start tokenized).session moves).1 = 2 ∧
      Kept {} "a['$']".toList tokenized (removals ((Holding.start tokenized).session moves).1)
        ((Holding.start tokenized).session moves).2 := by
  intro tokenized moves
  have accepted : tokenize {} "a['$']".toList = .ok tokenized := by decide +kernel
  exact ⟨accepted,rfl,session_kept accepted moves⟩

end TokenizedPath
end PathExpr
