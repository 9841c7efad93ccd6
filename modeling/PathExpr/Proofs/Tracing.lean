import PathExpr.Proofs.Cursor.Round
import PathExpr.Proofs.Slices
import PathExpr.Proofs.TokenizedPath

-- The debug trace of a tokenization. It is what a scan puts down that keeps its record
-- while it goes along, and the indexes in it cut the path into the slices of its fragments.
namespace PathExpr

namespace Cursor

variable {cursor after : Cursor} {fragments later : List Fragment}

abbrev Recorded := List Event × Except Failure (List Fragment) × Cursor

def recordedRound : List Event × List Fragment × Cursor → Turn (List Event × List Fragment × Cursor) Recorded
  | (events,fragments,cursor) =>
    match round (fragments,cursor) with
    | .ended result => .ended (events,result)
    | .onward (later,after) =>
      let found := later.drop fragments.length
      .onward (events ++ found.map fun fragment => .fragment fragment.text after.index after.text,later,after)

theorem ended_marks {result : Except Failure (List Fragment) × Cursor}
    (ended : round (fragments,cursor) = .ended result) : (Scan.of cursor.rest).marks = [] := by
  have meets := round_meets fragments cursor
  rw [ended] at meets
  rcases meets.ended with met | ⟨halt,met⟩
  · rw [Scan.of_ending met]
    rfl
  · rw [Scan.of_halted met]

theorem onward_marks (went : round (fragments,cursor) = .onward (later,after)) :
    ∃ found, later = fragments ++ found ∧
      (Scan.of cursor.rest).marks = found.map (Mark.mk · after.rest) ++ (Scan.of after.rest).marks := by
  have meets := round_meets fragments cursor
  rw [went] at meets
  rcases meets.onward with ⟨_,⟨met,rfl⟩ | ⟨piece,met,rfl⟩⟩
  · rw [Scan.of_separator met]
    exact ⟨[],(List.append_nil _).symm,rfl⟩
  · rw [Scan.of_fragment met]
    exact ⟨[piece],rfl,rfl⟩

theorem recorded_ends {state : List Fragment × Cursor} {result : Except Failure (List Fragment) × Cursor}
    (ends : Ends round state result) (events : List Event) : Ends recordedRound (events,state)
      (events ++ (Scan.of state.2.rest).marks.map (Event.ofMark state.2.text),result) := by
  induction ends generalizing events with
  | @now state result ended =>
    obtain ⟨fragments,cursor⟩ := state
    rw [ended_marks ended,List.map_nil,List.append_nil]
    refine .now ?_
    rw [recordedRound,ended]
  | @later state next result went _ ih =>
    obtain ⟨fragments,cursor⟩ := state
    obtain ⟨later,after⟩ := next
    obtain ⟨found,rfl,marks⟩ := onward_marks went
    obtain ⟨text,_⟩ := round_onward went
    have recorded : found.map (fun fragment => Event.fragment fragment.text after.index after.text) =
        (found.map (Mark.mk · after.rest)).map (Event.ofMark cursor.text) := by
      rw [List.map_map,index,text]
      rfl
    have onward := ih (events ++ (found.map (Mark.mk · after.rest)).map (Event.ofMark cursor.text))
    simp only [text,List.append_assoc] at onward
    rw [marks,List.map_append]
    refine .later ?_ onward
    rw [recordedRound,went]
    simp only [List.drop_left,recorded]

theorem split_recorded (path : Text) : Ends recordedRound ([],[],start path)
    ((Scan.of path).marks.map (Event.ofMark path),(start path).split) :=
  recorded_ends (split_ends_start path) []

end Cursor
namespace Scan

variable {path : Text}

theorem of_finished (done : (of path).halt = none) : (Cursor.start path).split.1 = .ok (of path).fragments := by
  rw [Cursor.split,Cursor.run_outcome,Cursor.start,split]
  simp only [done]
  rfl

theorem of_stopped {halt : Halt} (stopped : (of path).halt = some halt) :
    (Cursor.start path).split.1 = .error (halt.failure path) ∧
      ∃ fault, halt.failure path = .unusable path fault := by
  have failed : (Cursor.start path).split.1 = .error (halt.failure path) := by
    rw [Cursor.split,Cursor.run_outcome,Cursor.start,split]
    simp only [stopped]
    rfl
  refine ⟨failed,?_⟩
  obtain ⟨found,halted,same⟩ := Cursor.split_failed failed
  rw [same]
  rcases Mode.run_halts halted with rfl | rfl | ⟨rest,rfl⟩ <;> exact ⟨_,rfl⟩

end Scan

def Event.ofCut (path : Text) (cut : Fragment × Nat) : Event := .fragment cut.1.text cut.2 path

def Scan.cuts (path : Text) : List (Fragment × Nat) := (of path).marks.map (Mark.cut path)

namespace Scan

theorem cuts_events (path : Text) : (cuts path).map (Event.ofCut path) = (of path).marks.map (Event.ofMark path) := by
  rw [cuts,List.map_map]
  rfl

theorem cuts_fragments (path : Text) : (cuts path).map Prod.fst = (of path).fragments := by
  rw [cuts,List.map_map]
  rfl

theorem cuts_recorded (path : Text) : ∃ after, Ends Cursor.recordedRound ([],[],Cursor.start path)
    ((cuts path).map (Event.ofCut path),(Cursor.start path).split.1,after) := by
  rw [cuts_events]
  exact ⟨_,Cursor.split_recorded path⟩

theorem cuts_cut (path : Text) : ∃ last, Cut path 0 (cuts path) last ∧
    Mode.outcome (path.drop last) = match (of path).halt with
      | none => .ok []
      | some halt => .error halt := by
  obtain ⟨left,slices,unread⟩ := slices path
  obtain ⟨last,dropped,cut⟩ := slices.cut []
  rw [List.nil_append] at dropped cut
  rw [← dropped] at unread
  exact ⟨last,cut,unread⟩

end Scan

namespace TokenizedPath

variable {options : Options} {path : Text}

theorem traced_limited {failure : Failure} (limited : options.lengthFailure? path = some failure) :
    traced options path = ⟨[],.error failure⟩ := by
  rw [traced,limited]

theorem traced_called {fault : Fault} (fits : options.lengthFailure? path = none)
    (called : options.callFault? path = some fault) :
    traced options path = ⟨[.rejected path fault],.error (.unusable path fault)⟩ := by
  rw [traced,fits,called]
  rfl

theorem traced_scanned (fits : options.lengthFailure? path = none) (free : options.callFault? path = none) :
    traced options path = scanned (options.used path) := by
  rw [traced,fits,free]

theorem scanned_finished (done : (Scan.of path).halt = none) :
    scanned path = ⟨(Scan.cuts path).map (Event.ofCut path),.ok ⟨path,Token.ofFragments (Scan.of path).fragments⟩⟩ := by
  rw [scanned,Scan.cuts_events]
  simp only [done]

theorem scanned_stopped {halt : Halt} {fault : Fault} (stopped : (Scan.of path).halt = some halt)
    (unusable : halt.failure path = .unusable path fault) :
    scanned path = ⟨(Scan.cuts path).map (Event.ofCut path) ++ [.rejected path fault],
      .error (.unusable path fault)⟩ := by
  rw [scanned,Scan.cuts_events]
  simp only [stopped,unusable]
  rfl

theorem traced_admitted {tokenized : TokenizedPath} (accepted : (traced options path).outcome = .ok tokenized) :
    options.lengthFailure? path = none ∧ options.callFault? path = none := by
  cases fits : options.lengthFailure? path with
  | some failure => rw [traced_limited fits] at accepted; cases accepted
  | none =>
    cases called : options.callFault? path with
    | some fault => rw [traced_called fits called] at accepted; cases accepted
    | none => exact ⟨rfl,rfl⟩

theorem scanned_accepted {tokenized : TokenizedPath} (accepted : (scanned path).outcome = .ok tokenized) :
    ∃ cuts last after, (scanned path).events = cuts.map (Event.ofCut path) ∧
      cuts.map Prod.fst = tokenized.origins ∧ Cut path 0 cuts last ∧
      (Cursor.start (path.drop last)).split.1 = .ok [] ∧
      Ends Cursor.recordedRound ([],[],Cursor.start path)
        ((scanned path).events,.ok tokenized.origins,after) := by
  cases stopped : (Scan.of path).halt with
  | some halt =>
    obtain ⟨_,fault,unusable⟩ := Scan.of_stopped stopped
    rw [scanned_stopped stopped unusable] at accepted
    cases accepted
  | none =>
    rw [scanned_finished stopped] at accepted ⊢
    cases accepted
    obtain ⟨last,cut,unread⟩ := Scan.cuts_cut path
    obtain ⟨after,recorded⟩ := Scan.cuts_recorded path
    have origins : origins ⟨path,Token.ofFragments (Scan.of path).fragments⟩ = (Scan.of path).fragments :=
      Token.ofFragments_origin _
    rw [stopped] at unread
    rw [Scan.of_finished stopped] at recorded
    rw [origins]
    refine ⟨Scan.cuts path,last,after,rfl,Scan.cuts_fragments path,cut,?_,recorded⟩
    rw [Cursor.split_outcome,unread]
    rfl

theorem scanned_failed {failure : Failure} (failed : (scanned path).outcome = .error failure) :
    ∃ cuts last fault after, failure = .unusable path fault ∧
      (scanned path).events = cuts.map (Event.ofCut path) ++ [.rejected path fault] ∧ Cut path 0 cuts last ∧
      Ends Cursor.recordedRound ([],[],Cursor.start path) (cuts.map (Event.ofCut path),.error failure,after) := by
  cases stopped : (Scan.of path).halt with
  | none => rw [scanned_finished stopped] at failed; cases failed
  | some halt =>
    obtain ⟨outcome,fault,unusable⟩ := Scan.of_stopped stopped
    rw [scanned_stopped stopped unusable] at failed ⊢
    cases failed
    obtain ⟨last,cut,_⟩ := Scan.cuts_cut path
    obtain ⟨after,recorded⟩ := Scan.cuts_recorded path
    rw [outcome,unusable] at recorded
    exact ⟨Scan.cuts path,last,fault,after,rfl,rfl,cut,recorded⟩

-- What the debug trace tells of a path. Of an accepted one it names every fragment with
-- the index behind it, of a refused one those found before, and then the refusal. A path
-- that is only too long, or a limit that is none, leaves no trace.
structure Tracing (options : Options) (path : Text) : Prop where
  accepted : ∀ tokenized, (traced options path).outcome = .ok tokenized → ∃ cuts last after,
    (traced options path).events = cuts.map (Event.ofCut (options.used path)) ∧
    cuts.map Prod.fst = tokenized.origins ∧ Cut (options.used path) 0 cuts last ∧
    (Cursor.start ((options.used path).drop last)).split.1 = .ok [] ∧
    Ends Cursor.recordedRound ([],[],Cursor.start (options.used path))
      ((traced options path).events,.ok tokenized.origins,after)
  limited : ∀ failure, options.lengthFailure? path = some failure →
    (traced options path).outcome = .error failure ∧ (traced options path).events = []
  called : ∀ fault, options.lengthFailure? path = none → options.callFault? path = some fault →
    (traced options path).outcome = .error (.unusable path fault) ∧
      (traced options path).events = [.rejected path fault]
  halted : ∀ failure, options.lengthFailure? path = none → options.callFault? path = none →
    (traced options path).outcome = .error failure → ∃ cuts last fault after,
      failure = .unusable (options.used path) fault ∧
      (traced options path).events =
        cuts.map (Event.ofCut (options.used path)) ++ [.rejected (options.used path) fault] ∧
      Cut (options.used path) 0 cuts last ∧
      Ends Cursor.recordedRound ([],[],Cursor.start (options.used path))
        (cuts.map (Event.ofCut (options.used path)),.error failure,after)

end TokenizedPath

theorem tokenize_traced (options : Options) (path : Text) : TokenizedPath.Tracing options path where
  accepted := by
    intro tokenized accepted
    obtain ⟨fits,free⟩ := TokenizedPath.traced_admitted accepted
    rw [TokenizedPath.traced_scanned fits free] at accepted ⊢
    exact TokenizedPath.scanned_accepted accepted
  limited := by
    intro failure limited
    rw [TokenizedPath.traced_limited limited]
    exact ⟨rfl,rfl⟩
  called := by
    intro fault fits called
    rw [TokenizedPath.traced_called fits called]
    exact ⟨rfl,rfl⟩
  halted := by
    intro failure fits free failed
    rw [TokenizedPath.traced_scanned fits free] at failed ⊢
    exact TokenizedPath.scanned_failed failed

example : Scan.cuts "$. a..[ 'b' ] . ".toList =
    [(⟨['$'],false⟩,1),(⟨['a'],false⟩,4),(⟨['.','.'],false⟩,6),(⟨['b'],true⟩,13)] := by
  decide +kernel

end PathExpr
