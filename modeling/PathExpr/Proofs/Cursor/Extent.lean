import Mathlib.Algebra.Ring.Parity
import Mathlib.Order.Bounds.Basic
import PathExpr.Proofs.Cursor
import PathExpr.Proofs.Reading

-- What an extract takes, told by indexes and not by a loop: which of them lie in groups, which
-- are escaped, and which is the first that stops it. The loop comes to the same.
namespace PathExpr

structure Extent where
  text : Text
  start : Nat
  isStop : Char → Bool

namespace Extent

def Covers (extent : Extent) (opening index : Nat) : Prop :=
  opening ≤ index ∧ ∀ between < index, opening < between → extent.text[between]? ≠ some ')'

instance (extent : Extent) (opening index : Nat) : Decidable (extent.Covers opening index) :=
  inferInstanceAs (Decidable (_ ∧ _))

def Grouped (extent : Extent) (openings : List Nat) (index : Nat) : Prop :=
  ∃ opening ∈ openings, extent.Covers opening index

instance (extent : Extent) (openings : List Nat) (index : Nat) : Decidable (extent.Grouped openings index) :=
  inferInstanceAs (Decidable (∃ opening ∈ openings, _))

def IsSlash (extent : Extent) (openings : List Nat) (index : Nat) : Prop :=
  extent.start ≤ index ∧ extent.text[index]? = some '\\' ∧ ¬extent.Grouped openings index

instance (extent : Extent) (openings : List Nat) (index : Nat) : Decidable (extent.IsSlash openings index) :=
  inferInstanceAs (Decidable (_ ∧ _))

def slashes (extent : Extent) (openings : List Nat) : Nat → Nat
  | 0 => 0
  | index+1 => if extent.IsSlash openings index then extent.slashes openings index + 1 else 0

def Escaped (extent : Extent) (openings : List Nat) (index : Nat) : Prop :=
  ¬extent.Grouped openings index ∧ Odd (extent.slashes openings index)

instance (extent : Extent) (openings : List Nat) (index : Nat) : Decidable (extent.Escaped openings index) :=
  inferInstanceAs (Decidable (_ ∧ _))

def Opens (extent : Extent) (earlier : List Nat) (index : Nat) : Prop :=
  extent.start ≤ index ∧ extent.text[index]? = some '(' ∧ extent.isStop '(' = false ∧
    ¬extent.Grouped earlier index ∧ ¬extent.Escaped earlier index

instance (extent : Extent) (earlier : List Nat) (index : Nat) : Decidable (extent.Opens earlier index) :=
  inferInstanceAs (Decidable (_ ∧ _))

-- Where groups open in front of an index. Whether one opens there depends on these alone.
def openings (extent : Extent) : Nat → List Nat
  | 0 => []
  | index+1 =>
    if extent.Opens (extent.openings index) index then extent.openings index ++ [index] else extent.openings index

def groups (extent : Extent) : List Nat := extent.openings extent.text.length

def Stops (extent : Extent) (index : Nat) : Prop :=
  extent.start ≤ index ∧ ¬extent.Grouped extent.groups index ∧ ¬extent.Escaped extent.groups index ∧
    ∃ c, extent.text[index]? = some c ∧ extent.isStop c = true

def Ends (extent : Extent) (index : Nat) : Prop := index = extent.text.length ∨ extent.Stops index

def between (extent : Extent) (first last : Nat) : Text :=
  (List.range' first (last - first)).filterMap fun index =>
    if extent.IsSlash extent.groups index then none else extent.text[index]?

def Unclosed (extent : Extent) (last : Nat) : Prop :=
  ∃ opening ∈ extent.groups, opening < last ∧ extent.Covers opening extent.text.length

instance (extent : Extent) (last : Nat) : Decidable (extent.Unclosed last) :=
  inferInstanceAs (Decidable (∃ opening ∈ extent.groups, _))

def outcome (extent : Extent) (boundary : Boundary) (last : Nat) : Except Failure Text × Nat :=
  if extent.Unclosed last then (.error (.unusable extent.text .unclosedGroup),extent.text.length)
  else match boundary,extent.text[last]? with
    | .before _,_ => (.ok (extent.between extent.start last),last)
    | .through expected _,none => (.error (.unusable extent.text (.missing expected)),extent.text.length)
    | .through _ _,some stop => (.ok (extent.between extent.start last ++ [stop]),last + 1)

variable {extent : Extent} {opening index bound other : Nat}

theorem Covers.within (covers : extent.Covers opening bound) (behind : opening ≤ index) (within : index ≤ bound) :
    extent.Covers opening index :=
  ⟨behind,fun between less => covers.2 between (Nat.lt_of_lt_of_le less within)⟩

theorem covers_self (extent : Extent) (index : Nat) : extent.Covers index index :=
  ⟨Nat.le_refl index,fun _ less more => absurd less (Nat.lt_asymm more)⟩

theorem mem_openings : opening ∈ extent.openings bound ↔
    opening < bound ∧ extent.Opens (extent.openings opening) opening := by
  induction bound with
  | zero => simp [openings]
  | succ bound ih =>
    rw [openings]
    split
    · rename_i opens
      rw [List.mem_append,ih,List.mem_singleton]
      constructor
      · rintro (⟨less,earlier⟩ | rfl)
        · exact ⟨Nat.lt_succ_of_lt less,earlier⟩
        · exact ⟨Nat.lt_succ_self _,opens⟩
      · rintro ⟨less,earlier⟩
        exact (Nat.lt_succ_iff_lt_or_eq.mp less).imp (⟨·,earlier⟩) id
    · rename_i shut
      rw [ih]
      constructor
      · rintro ⟨less,earlier⟩
        exact ⟨Nat.lt_succ_of_lt less,earlier⟩
      · rintro ⟨less,earlier⟩
        rcases Nat.lt_succ_iff_lt_or_eq.mp less with before | rfl
        · exact ⟨before,earlier⟩
        · exact absurd earlier shut

theorem grouped_openings (one : index < bound) (two : index < other) :
    extent.Grouped (extent.openings bound) index ↔ extent.Grouped (extent.openings other) index := by
  have wider {first second : Nat} (room : index < second) (grouped : extent.Grouped (extent.openings first) index) :
      extent.Grouped (extent.openings second) index := by
    obtain ⟨opening,member,covers⟩ := grouped
    exact ⟨opening,mem_openings.mpr ⟨Nat.lt_of_le_of_lt covers.1 room,(mem_openings.mp member).2⟩,covers⟩
  exact ⟨wider two,wider one⟩

theorem slashes_openings (one : index ≤ bound) (two : index ≤ other) :
    extent.slashes (extent.openings bound) index = extent.slashes (extent.openings other) index := by
  induction index with
  | zero => rfl
  | succ index ih =>
    have same : extent.IsSlash (extent.openings bound) index ↔ extent.IsSlash (extent.openings other) index := by
      rw [IsSlash,IsSlash,grouped_openings one two]
    rw [slashes,slashes,ih (Nat.le_of_succ_le one) (Nat.le_of_succ_le two)]
    exact if_congr same rfl rfl

theorem mem_groups (within : index < extent.text.length) :
    index ∈ extent.groups ↔ extent.Opens (extent.openings index) index := by
  rw [groups,mem_openings]
  exact and_iff_right within

theorem grouped_groups (within : index < extent.text.length) :
    extent.Grouped extent.groups index ↔ extent.Grouped (extent.openings index) index ∨ index ∈ extent.groups := by
  constructor
  · rintro ⟨opening,member,covers⟩
    rcases Nat.lt_or_eq_of_le covers.1 with before | rfl
    · exact .inl ⟨opening,mem_openings.mpr ⟨before,(mem_openings.mp member).2⟩,covers⟩
    · exact .inr member
  · rintro (⟨opening,member,covers⟩ | member)
    · obtain ⟨before,opens⟩ := mem_openings.mp member
      exact ⟨opening,mem_openings.mpr ⟨Nat.lt_trans before within,opens⟩,covers⟩
    · exact ⟨index,member,covers_self extent index⟩

theorem drop_cons {text rest : Text} {c : Char} (unread : text.drop index = c :: rest) :
    index < text.length ∧ text[index]? = some c ∧ text.drop (index + 1) = rest := by
  have found : text[index]? = some c := by
    have first := congrArg List.head? unread
    rwa [List.head?_drop] at first
  refine ⟨(List.getElem?_eq_some_iff.mp found).1,found,?_⟩
  have behind := congrArg List.tail unread
  rwa [List.tail_drop] at behind

-- The loop at an index: in no group that is open, and with the escape that the backslashes
-- in front of it make.
structure At (extent : Extent) (index : Nat) (escaped : Bool) : Prop where
  onward : extent.start ≤ index
  within : index ≤ extent.text.length
  outside : ¬extent.Grouped (extent.openings index) index
  escaped : escaped = true ↔ Odd (extent.slashes extent.groups index)

-- What the loop passes between two indexes: no stop, no group that is left open, and of the
-- characters those that it copies.
structure Passed (extent : Extent) (first last : Nat) (copied : Text) : Prop where
  onward : first ≤ last
  free : ∀ index, first ≤ index → index < last → ¬extent.Stops index
  closed : ∀ opening ∈ extent.groups, first ≤ opening → opening < last → ¬extent.Covers opening extent.text.length
  copied : extent.between first last = copied

variable {first middle last : Nat} {copied later : Text} {escaped : Bool} {c : Char}

theorem between_append (one : first ≤ middle) (two : middle ≤ last) :
    extent.between first last = extent.between first middle ++ extent.between middle last := by
  have joined : List.range' first (last - first) =
      List.range' first (middle - first) ++ List.range' middle (last - middle) := by
    have cut := List.range'_append_1 (s:=first) (m:=middle - first) (n:=last - middle)
    rw [Nat.add_sub_cancel' one] at cut
    rw [cut]
    congr 1
    omega
  rw [between,joined,List.filterMap_append]
  rfl

theorem between_single (found : extent.text[index]? = some c) :
    extent.between index (index + 1) = if extent.IsSlash extent.groups index then [] else [c] := by
  simp only [between,Nat.add_sub_cancel_left,List.range'_one]
  split <;> simp_all

theorem Passed.refl (extent : Extent) (index : Nat) : extent.Passed index index [] where
  onward := Nat.le_refl index
  free := by omega
  closed := by omega
  copied := by simp [between]

theorem Passed.trans (one : extent.Passed first middle copied) (two : extent.Passed middle last later) :
    extent.Passed first last (copied ++ later) where
  onward := one.onward.trans two.onward
  free index behind before := by
    rcases Nat.lt_or_ge index middle with here | there
    · exact one.free index behind here
    · exact two.free index there before
  closed opening member behind before := by
    rcases Nat.lt_or_ge opening middle with here | there
    · exact one.closed opening member behind here
    · exact two.closed opening member there before
  copied := by rw [between_append one.onward two.onward,one.copied,two.copied]

theorem At.escaped_iff (here : extent.At index escaped) :
    extent.Escaped (extent.openings index) index ↔ escaped = true := by
  rw [Escaped,here.escaped,slashes_openings (Nat.le_refl index) here.within]
  exact and_iff_right here.outside

theorem At.opens_iff (here : extent.At index escaped) (found : extent.text[index]? = some c) :
    index ∈ extent.groups ↔ escaped = false ∧ c = '(' ∧ extent.isStop '(' = false := by
  rw [mem_groups (List.getElem?_eq_some_iff.mp found).1,Opens,here.escaped_iff,found]
  simp only [here.onward,here.outside,Option.some.injEq,Bool.not_eq_true,not_false_eq_true,true_and]
  tauto

theorem At.outside_next (here : extent.At index escaped) (shut : index ∉ extent.groups)
    (within : index < extent.text.length) : ¬extent.Grouped (extent.openings (index + 1)) (index + 1) := by
  rintro ⟨opening,member,covers⟩
  obtain ⟨before,opens⟩ := mem_openings.mp member
  rcases Nat.lt_succ_iff_lt_or_eq.mp before with earlier | rfl
  · exact here.outside ⟨opening,mem_openings.mpr ⟨earlier,opens⟩,covers.within (Nat.le_of_lt earlier) (Nat.le_succ index)⟩
  · exact shut ((mem_groups within).mpr opens)

theorem At.isSlash_iff (here : extent.At index escaped) (shut : index ∉ extent.groups)
    (found : extent.text[index]? = some c) : extent.IsSlash extent.groups index ↔ c = '\\' := by
  rw [IsSlash,grouped_groups (List.getElem?_eq_some_iff.mp found).1,found]
  simp [here.onward,here.outside,shut]

theorem At.stops_iff (here : extent.At index escaped) (shut : index ∉ extent.groups)
    (found : extent.text[index]? = some c) : extent.Stops index ↔ (!escaped && extent.isStop c) = true := by
  have outside : ¬extent.Grouped extent.groups index := by
    rw [grouped_groups (List.getElem?_eq_some_iff.mp found).1]
    exact not_or.mpr ⟨here.outside,shut⟩
  rw [Stops,Escaped,← here.escaped,found]
  simp [here.onward,outside]

theorem At.step (here : extent.At index escaped) (found : extent.text[index]? = some c)
    (free : ¬(!escaped && extent.isStop c) = true) (closed : ¬(!escaped && decide (c = '(')) = true) :
    extent.At (index + 1) (!escaped && decide (c = '\\')) ∧
      extent.Passed index (index + 1) (if c = '\\' then [] else [c]) := by
  have within := (List.getElem?_eq_some_iff.mp found).1
  have shut : index ∉ extent.groups := by
    rw [here.opens_iff found]
    rintro ⟨rfl,rfl,_⟩
    exact closed rfl
  have slash := here.isSlash_iff shut found
  have only {place : Nat} (behind : index ≤ place) (before : place < index + 1) : place = index := by omega
  refine ⟨⟨Nat.le_succ_of_le here.onward,within,here.outside_next shut within,?_⟩,Nat.le_succ index,?_,?_,?_⟩
  · rw [slashes]
    split
    · rename_i counts
      rw [Nat.odd_add_one,← here.escaped]
      simp [slash.mp counts]
    · rename_i other
      simp [mt slash.mpr other]
  · intro place behind before
    rw [only behind before,here.stops_iff shut found]
    exact free
  · intro opening member behind before
    rw [only behind before] at member
    exact absurd member shut
  · rw [between_single found]
    exact if_congr slash rfl rfl

theorem between_verbatim {front rest : Text} (unread : extent.text.drop first = front ++ rest)
    (plain : ∀ index, first ≤ index → index < first + front.length → ¬extent.IsSlash extent.groups index) :
    extent.between first (first + front.length) = front := by
  induction front generalizing first with
  | nil => simp [between]
  | cons c front ih =>
    obtain ⟨within,found,behind⟩ := drop_cons unread
    simp only [List.length_cons] at plain ⊢
    have here := plain first (Nat.le_refl first) (by omega)
    have later := ih behind fun index more less => plain index (by omega) (by omega)
    have last : first + (front.length + 1) = first + 1 + front.length := by omega
    rw [last,between_append (Nat.le_succ first) (Nat.le_add_right _ _),later,between_single found,if_neg here]
    rfl

theorem covered (member : opening ∈ extent.groups) (covers : extent.Covers opening index) :
    ¬extent.Stops index ∧ ¬extent.IsSlash extent.groups index ∧ (opening < index → index ∉ extent.groups) := by
  refine ⟨fun stops => stops.2.1 ⟨opening,member,covers⟩,fun slash => slash.2.2 ⟨opening,member,covers⟩,?_⟩
  intro before another
  have opens := (mem_openings.mp member).2
  exact (mem_openings.mp another).2.2.2.2.1 ⟨opening,mem_openings.mpr ⟨before,opens⟩,covers⟩

theorem At.group {inner rest : Text} (here : extent.At index false) (free : extent.isStop '(' = false)
    (unread : extent.text.drop index = '(' :: (inner ++ ')' :: rest)) (unclosed : ')' ∉ inner) :
    extent.At (index + (inner.length + 2)) false ∧
      extent.Passed index (index + (inner.length + 2)) ('(' :: (inner ++ [')'])) ∧
      extent.text.drop (index + (inner.length + 2)) = rest := by
  have place (count : Nat) : extent.text[index + count]? = ('(' :: (inner ++ ')' :: rest))[count]? := by
    rw [← unread,List.getElem?_drop]
  have member : index ∈ extent.groups := (here.opens_iff (place 0)).mpr ⟨rfl,rfl,free⟩
  have closing : extent.text[index + (inner.length + 1)]? = some ')' := by
    rw [place]
    simp
  have covers : extent.Covers index (index + (inner.length + 1)) := by
    refine ⟨Nat.le_add_right _ _,fun between less more closed => unclosed ?_⟩
    obtain ⟨count,rfl⟩ := Nat.exists_eq_add_of_lt more
    rw [Nat.add_assoc,place,List.getElem?_cons_succ,List.getElem?_append_left (by omega)] at closed
    exact List.mem_of_getElem? closed
  have within {spot : Nat} (behind : index ≤ spot) (before : spot < index + (inner.length + 2)) :=
    covered member (covers.within behind (by omega))
  have ended : extent.text.drop (index + (inner.length + 2)) = rest := by
    rw [← List.drop_drop,unread]
    simp
  have length : index + (inner.length + 1) < extent.text.length := (List.getElem?_eq_some_iff.mp closing).1
  have onward := here.onward
  have only {opening : Nat} (found : opening ∈ extent.groups) (behind : index ≤ opening)
      (before : opening < index + (inner.length + 2)) : opening = index := by
    by_contra other
    exact (within behind before).2.2 (by omega) found
  refine ⟨⟨by omega,by omega,?_,?_⟩,⟨Nat.le_add_right _ _,?_,?_,?_⟩,ended⟩
  · rintro ⟨opening,found,reaches⟩
    obtain ⟨before,opens⟩ := mem_openings.mp found
    rcases Nat.lt_or_ge opening index with earlier | behind
    · exact here.outside ⟨opening,mem_openings.mpr ⟨earlier,opens⟩,reaches.within (by omega) (by omega)⟩
    · obtain rfl := only (mem_openings.mpr ⟨by omega,opens⟩) behind before
      exact reaches.2 _ (by omega) (by omega) closing
  · have plain := (@within (index + (inner.length + 1)) (by omega) (by omega)).2.1
    rw [← Nat.add_assoc index,slashes,if_neg (by simpa [Nat.add_assoc] using plain)]
    simp
  · intro spot behind before
    exact (within behind before).1
  · intro opening found behind before reaches
    obtain rfl := only found behind before
    exact reaches.2 _ length (by omega) closing
  · have whole : extent.text.drop index = '(' :: (inner ++ [')']) ++ rest := by rw [unread]; simp
    have copied := between_verbatim whole fun spot behind before => (within behind (by simpa using before)).2.1
    simpa using copied

theorem Copies.passed {escaped pending : Bool} {front place : Text}
    (copies : Reading.Copies extent.isStop escaped front copied pending place) (here : extent.At index escaped)
    (unread : extent.text.drop index = front) :
    ∃ last, extent.At last pending ∧ extent.Passed index last copied ∧ extent.text.drop last = place := by
  induction copies generalizing index with
  | done => exact ⟨index,here,.refl extent index,unread⟩
  | @group pending rest front after copied place free taken _ ih =>
    obtain ⟨opening,inner,unclosed,rfl,joined⟩ := Reading.group_parts taken
    obtain ⟨rfl,rfl⟩ := List.cons.inj joined
    obtain ⟨there,passed,left⟩ := here.group free unread unclosed
    obtain ⟨last,ended,later,behind⟩ := ih there left
    exact ⟨last,ended,passed.trans later,behind⟩
  | slash free _ ih =>
    obtain ⟨_,found,left⟩ := drop_cons unread
    obtain ⟨there,passed⟩ := here.step found free (by simp)
    obtain ⟨last,ended,later,behind⟩ := ih (by simpa using there) left
    exact ⟨last,ended,by simpa using passed.trans later,behind⟩
  | kept free closed other _ ih =>
    obtain ⟨_,found,left⟩ := drop_cons unread
    obtain ⟨there,passed⟩ := here.step found free closed
    obtain ⟨last,ended,later,behind⟩ := ih (by simpa [other] using there) left
    exact ⟨last,ended,by simpa [other] using passed.trans later,behind⟩

theorem at_start (within : extent.start ≤ extent.text.length) : extent.At extent.start false where
  onward := Nat.le_refl _
  within := within
  outside := by
    rintro ⟨opening,member,_⟩
    obtain ⟨before,opens⟩ := mem_openings.mp member
    exact absurd opens.1 (Nat.not_le_of_lt before)
  escaped := by
    cases first : extent.start with
    | zero => simp [slashes]
    | succ index =>
      have plain : ¬extent.IsSlash extent.groups index := fun slash => by have := slash.1; omega
      simp [slashes,plain]

theorem not_unclosed (passed : extent.Passed extent.start last copied) : ¬extent.Unclosed last := by
  rintro ⟨opening,member,before,covers⟩
  exact passed.closed opening member (mem_openings.mp member).2.1 before covers

theorem isLeast_ends (passed : extent.Passed extent.start last copied) (within : last ≤ extent.text.length)
    (ends : extent.Ends last) : IsLeast {index | extent.start ≤ index ∧ extent.Ends index} last := by
  refine ⟨⟨passed.onward,ends⟩,?_⟩
  rintro index ⟨behind,rfl | stops⟩
  · exact within
  · by_contra before
    exact passed.free index behind (Nat.lt_of_not_le before) stops

theorem content_ends (extent : Extent) (within : extent.start ≤ extent.text.length) :
    ∃ last, IsLeast {index | extent.start ≤ index ∧ extent.Ends index} last ∧ last ≤ extent.text.length ∧
      Reading.content extent.isStop false (extent.text.drop extent.start) =
        if extent.Unclosed last then .error .unclosedGroup
        else .ok (extent.between extent.start last,extent.text.drop last) := by
  have start := at_start within
  have outcome := Reading.content_outcome extent.isStop false (extent.text.drop extent.start)
  generalize Reading.content extent.isStop false (extent.text.drop extent.start) = taken at outcome ⊢
  cases outcome with
  | finished copies =>
    obtain ⟨last,ended,passed,left⟩ := Copies.passed copies start rfl
    have ends : last = extent.text.length := Nat.le_antisymm ended.within (List.drop_eq_nil_iff.mp left)
    refine ⟨last,isLeast_ends passed ended.within (.inl ends),ended.within,?_⟩
    rw [if_neg (not_unclosed passed),passed.copied,left]
  | @stopped copied rest pending c copies stops =>
    obtain ⟨last,ended,passed,left⟩ := Copies.passed copies start rfl
    obtain ⟨_,found,_⟩ := drop_cons left
    have shut : last ∉ extent.groups := by
      rw [ended.opens_iff found]
      rintro ⟨rfl,rfl,free⟩
      simp [free] at stops
    have ends := (ended.stops_iff shut found).mpr stops
    refine ⟨last,isLeast_ends passed ended.within (.inr ends),ended.within,?_⟩
    rw [if_neg (not_unclosed passed),passed.copied,left]
  | unclosed copies free unclosed =>
    obtain ⟨opening,here,passed,left⟩ := Copies.passed copies start rfl
    obtain ⟨before,found,behind⟩ := drop_cons left
    have member := (here.opens_iff found).mpr ⟨rfl,rfl,free⟩
    have covers : extent.Covers opening extent.text.length := by
      refine ⟨Nat.le_of_lt before,fun between _ more closed => unclosed ?_⟩
      obtain ⟨count,rfl⟩ := Nat.exists_eq_add_of_lt more
      rw [← behind]
      refine List.mem_of_getElem? (i:=count) ?_
      rw [List.getElem?_drop,← closed]
      congr 1
      omega
    refine ⟨extent.text.length,⟨⟨within,.inl rfl⟩,?_⟩,Nat.le_refl _,?_⟩
    · rintro index ⟨onward,rfl | stops⟩
      · exact Nat.le_refl _
      · by_contra inside
        rcases Nat.lt_or_ge index opening with earlier | later
        · exact passed.free index onward earlier stops
        · exact (covered member (covers.within later (Nat.le_of_not_le inside))).1 stops
    · rw [if_pos ⟨opening,member,before,covers⟩]

end Extent

namespace Cursor

variable {cursor : Cursor} {boundary : Boundary}

theorem drop_index (cursor : Cursor) : cursor.text.drop cursor.index = cursor.rest := by
  obtain ⟨front,joined⟩ := cursor.unread
  have place : cursor.index = front.length := by
    rw [index,← joined,List.length_append,Nat.add_sub_cancel]
  rw [place,← joined,List.drop_left]

theorem extract_taken {raw rest : Text} (taken : Reading.extract boundary cursor.rest = .ok (raw,rest)) :
    ((cursor.extract boundary).1,(cursor.extract boundary).2.index) = (.ok raw,cursor.text.length - rest.length) := by
  rw [extract,run_ok _ taken]
  rfl

theorem extract_stopped {halt : Halt} (halted : Reading.extract boundary cursor.rest = .error halt) :
    ((cursor.extract boundary).1,(cursor.extract boundary).2.index) =
      (.error (halt.failure cursor.text),cursor.text.length - halt.rest.length) := by
  rw [extract,run_error _ halted]
  rfl

theorem extract_extent (cursor : Cursor) (boundary : Boundary) :
    let extent : Extent := ⟨cursor.text,cursor.index,boundary.isStop⟩
    ∃ last, IsLeast {index | cursor.index ≤ index ∧ extent.Ends index} last ∧
      ((cursor.extract boundary).1,(cursor.extract boundary).2.index) = extent.outcome boundary last := by
  intro extent
  obtain ⟨last,least,within,taken⟩ := extent.content_ends cursor.index_le_length
  rw [show extent.text.drop extent.start = cursor.rest from cursor.drop_index] at taken
  refine ⟨last,least,?_⟩
  unfold Extent.outcome
  by_cases unclosed : extent.Unclosed last
  · rw [if_pos unclosed] at taken ⊢
    exact extract_stopped (by rw [Reading.extract,taken])
  rw [if_neg unclosed] at taken ⊢
  have length : (extent.text.drop last).length = cursor.text.length - last := List.length_drop
  have within : last ≤ cursor.text.length := within
  cases boundary with
  | before stops =>
    have place : cursor.text.length - (extent.text.drop last).length = last := by omega
    exact (extract_taken (by rw [Reading.extract,taken])).trans (by rw [place])
  | through expected others =>
    rw [← List.head?_drop]
    generalize extent.text.drop last = unread at taken length
    cases unread with
    | nil => exact extract_stopped (by rw [Reading.extract,taken])
    | cons stop rest =>
      have next : cursor.text.length - rest.length = last + 1 := by
        rw [List.length_cons] at length
        omega
      rw [List.head?_cons,← next]
      exact extract_taken (by rw [Reading.extract,taken])

example : let extent : Extent := ⟨"\\(a\\.(b.\\)\\.c.d".toList,0,(· == '.')⟩
    extent.groups = [5] ∧ extent.outcome (.before [['.']]) 13 = (.ok "(a.(b.\\).c".toList,13) := by
  decide +kernel

end Cursor
end PathExpr
