import Mathlib.Data.Fintype.Card
import Mathlib.Data.List.Sort
import Mathlib.Data.Set.Finite.Basic
import Mathlib.Logic.Relation
import Mathlib.Order.WellFounded
import Rulebook.Dependency.Schedule

/-!
# Correctness of schedules

Counting open needs amounts to looking for the earliest position that needs none of the waiting
ones. So what is taken stands behind everything it needs. What is left over needs something that is
left over too, so there is a cycle in it; without a cycle everything is taken.
-/
namespace Rulebook.Dependency

/-- Whether a position needs none of the waiting ones. -/
def isReady (needs : Nat → List Nat) (waiting : List Nat) (position : Nat) : Bool :=
  (needs position).all (· ∉ waiting)

/-- The schedule without its counts: the positions in the order in which they are taken, and the
positions left over. -/
def greedy (needs : Nat → List Nat) (waiting : List Nat) : List Nat × List Nat :=
  match _found : waiting.find? (isReady needs waiting) with
  | none => ([], waiting)
  | some next =>
    let (taken, left) := greedy needs (waiting.erase next)
    (next :: taken, left)
termination_by waiting.length
decreasing_by
  have member := List.mem_of_find?_eq_some ‹_›
  have := List.length_pos_of_mem member
  rw [List.length_erase_of_mem member]
  omega

section

variable {position other : Nat}

/-- An insertion adds the position and keeps the others. -/
theorem mem_insertAscending (ready : List Nat) :
    other ∈ insertAscending position ready ↔ other = position ∨ other ∈ ready := by
  induction ready with
  | nil => simp [insertAscending]
  | cons first rest ih =>
    unfold insertAscending
    split
    · simp
    · split
      next same => simp [same]
      next => simp [ih, or_left_comm]

/-- An insertion keeps the list ascending; a position that is there already is not repeated. -/
theorem pairwise_insertAscending (ready : List Nat) (ascending : ready.Pairwise (· < ·)) :
    (insertAscending position ready).Pairwise (· < ·) := by
  induction ready with
  | nil => simp [insertAscending]
  | cons first rest ih =>
    obtain ⟨above, ascending'⟩ := List.pairwise_cons.mp ascending
    unfold insertAscending
    -- The position goes before the first one, or it is the first one, or it goes further down.
    split
    next below =>
      refine List.pairwise_cons.mpr ⟨?_, ascending⟩
      intro other member
      rcases List.mem_cons.mp member with rfl | further
      · exact below
      · exact Nat.lt_trans below (above other further)
    next notBelow =>
      split
      · exact ascending
      next apart =>
        refine List.pairwise_cons.mpr ⟨?_, ih ascending'⟩
        intro other member
        rcases (mem_insertAscending rest).mp member with rfl | further
        · omega
        · exact above other further

end

namespace Agenda

/-- Closing a need of a position lowers its count by one, and no other count. -/
theorem counts_close (agenda : Agenda) (position other : Nat) :
    (agenda.close position).counts[other]? =
      if other = position then agenda.counts[other]?.map (· - 1) else agenda.counts[other]? := by
  unfold close
  split
  next count found =>
    obtain ⟨inside, _⟩ := Array.getElem?_eq_some_iff.mp found
    by_cases same : other = position
    · subst same
      rw [if_pos rfl, found]
      simp [inside]
    · simp [same, Array.getElem?_setIfInBounds_ne (Ne.symm same)]
  -- A count of zero, or none, stays as it is.
  next closed =>
    split
    next same =>
      subst same
      match found : agenda.counts[other]? with
      | none => rfl
      | some 0 => rfl
      | some (count + 1) => exact absurd found (closed count)
    next => rfl

/-- A position becomes ready when its last open need is closed. -/
theorem mem_ready_close (agenda : Agenda) (position other : Nat) :
    other ∈ (agenda.close position).ready ↔
      other ∈ agenda.ready ∨ other = position ∧ agenda.counts[position]? = some 1 := by
  unfold close
  split
  next count found =>
    cases count with
    | zero => simp [found, mem_insertAscending, or_comm]
    | succ count => simp [found]
  next closed =>
    have more : agenda.counts[position]? ≠ some 1 := closed 0
    simp [more]

theorem ascending_close (agenda : Agenda) (position : Nat)
    (ascending : agenda.ready.Pairwise (· < ·)) :
    (agenda.close position).ready.Pairwise (· < ·) := by
  unfold close
  split
  next =>
    simp only
    split
    · exact pairwise_insertAscending _ ascending
    · exact ascending
  next => exact ascending

variable (positions : List Nat)

/-- Closing positions lowers the count of each by one and leaves all other counts. -/
theorem counts_closeAll (agenda : Agenda) (distinct : positions.Nodup) (other : Nat) :
    (positions.foldl close agenda).counts[other]? =
      if other ∈ positions then agenda.counts[other]?.map (· - 1) else agenda.counts[other]? := by
  -- A position is closed at most once, as none is repeated.
  induction positions generalizing agenda with
  | nil => simp
  | cons first rest ih =>
    obtain ⟨fresh, distinct⟩ := List.nodup_cons.mp distinct
    rw [List.foldl_cons, ih _ distinct, counts_close]
    by_cases same : other = first
    · subst same
      simp [fresh]
    · simp [same]

/-- What had one open need left becomes ready when it is closed. -/
theorem mem_ready_closeAll (agenda : Agenda) (distinct : positions.Nodup) (other : Nat) :
    other ∈ (positions.foldl close agenda).ready ↔
      other ∈ agenda.ready ∨ other ∈ positions ∧ agenda.counts[other]? = some 1 := by
  induction positions generalizing agenda with
  | nil => simp
  | cons first rest ih =>
    obtain ⟨fresh, distinct⟩ := List.nodup_cons.mp distinct
    rw [List.foldl_cons, ih _ distinct, counts_close, mem_ready_close]
    by_cases same : other = first
    · subst same
      simp [fresh]
    · simp [same]

/-- Closing positions keeps the ready list ascending. -/
theorem ascending_closeAll (agenda : Agenda) (ascending : agenda.ready.Pairwise (· < ·)) :
    (positions.foldl close agenda).ready.Pairwise (· < ·) := by
  induction positions generalizing agenda with
  | nil => exact ascending
  | cons first rest ih => exact ih _ (ascending_close agenda first ascending)

end Agenda

/-- An agenda counts the needs that still wait, and has ready what needs none of them. -/
structure Tracks (needs : Nat → List Nat) (count : Nat) (waiting : List Nat) (agenda : Agenda) :
    Prop where
  ascending : waiting.Pairwise (· < ·)
  inside : ∀ position ∈ waiting, position < count
  settled : ∀ position < count, position ∉ waiting → isReady needs waiting position
  counted : ∀ position < count,
    agenda.counts[position]? = some ((needs position).countP (· ∈ waiting))
  ready_eq : agenda.ready = waiting.filter (isReady needs waiting)

section

variable {needs neededBy : Nat → List Nat} {count : Nat} {waiting : List Nat}

/-- A position is ready exactly if none of its needs waits. -/
theorem isReady_iff (position : Nat) :
    isReady needs waiting position = true ↔ (needs position).countP (· ∈ waiting) = 0 := by
  simp [isReady, List.countP_eq_zero]

/-- At the start everything waits, and every count is the number of needs. -/
theorem tracks_start (inside : ∀ position, ∀ need ∈ needs position, need < count) :
    Tracks needs count (List.range count) (Agenda.start needs count) := by
  have whole (position : Nat) :
      (needs position).countP (· ∈ List.range count) = (needs position).length := by
    rw [List.countP_eq_length]
    intro need member
    simpa using inside position need member
  constructor
  case ascending => exact List.pairwise_lt_range
  case inside => exact fun position member => List.mem_range.mp member
  case settled => exact fun position below out => absurd (List.mem_range.mpr below) out
  case counted =>
    intro position below
    rw [whole]
    simp [Agenda.start, below]
  case ready_eq =>
    refine List.filter_congr ?_
    intro position _
    rw [Bool.eq_iff_iff, isReady_iff, whole, decide_eq_true_eq]

theorem countP_erase {next : Nat} (distinct : waiting.Nodup) (member : next ∈ waiting)
    (positions : List Nat) (once : positions.Nodup) :
    positions.countP (· ∈ waiting.erase next) =
      positions.countP (· ∈ waiting) - if next ∈ positions then 1 else 0 := by
  -- What is not repeated counts once where it stands and not at all elsewhere.
  have parted : positions.countP (· ∈ waiting) =
      positions.countP (· ∈ waiting.erase next) + positions.count next := by
    clear once
    induction positions with
    | nil => rfl
    | cons first rest ih =>
      by_cases same : first = next
      · subst same
        simp [ih, member, distinct.mem_erase_iff]
        omega
      · simp [List.countP_cons, ih, same, distinct.mem_erase_iff]
        omega
  rw [parted, once.count]
  omega

/-- What is ready stays ready when less waits. -/
theorem isReady_of_subset {fewer : List Nat} (subset : fewer ⊆ waiting) {position : Nat}
    (ready : isReady needs waiting position = true) : isReady needs fewer position = true := by
  simp only [isReady, List.all_eq_true, decide_eq_true_eq] at ready ⊢
  exact fun need member waits => ready need member (subset waits)

/-- Who needs a position is listed for it, and nothing is listed twice. -/
structure Mirrors (needs neededBy : Nat → List Nat) (count : Nat) : Prop where
  needs_lt : ∀ position, ∀ need ∈ needs position, need < count
  needs_nodup : ∀ position, (needs position).Nodup
  neededBy_nodup : ∀ position, (neededBy position).Nodup
  mem_neededBy : ∀ position other,
    other ∈ neededBy position ↔ other < count ∧ position ∈ needs other

/-- Taking the first ready position keeps track. -/
theorem Tracks.take (mirrors : Mirrors needs neededBy count) {agenda : Agenda}
    (tracks : Tracks needs count waiting agenda) {next : Nat} {rest : List Nat}
    (ready : agenda.ready = next :: rest) :
    Tracks needs count (waiting.erase next)
      ((neededBy next).foldl Agenda.close { agenda with ready := rest }) := by
  have nodup : waiting.Nodup := tracks.ascending.imp (fun below => Nat.ne_of_lt below)
  have readyAscending : (next :: rest).Pairwise (· < ·) := by
    rw [← ready, tracks.ready_eq]
    exact tracks.ascending.filter _
  obtain ⟨restAbove, restAscending⟩ := List.pairwise_cons.mp readyAscending
  have inReady (position : Nat) : position = next ∨ position ∈ rest ↔
      position ∈ waiting ∧ isReady needs waiting position = true := by
    rw [← List.mem_cons, ← ready, tracks.ready_eq, List.mem_filter]
  obtain ⟨nextWaits, nextReady⟩ := (inReady next).mp (Or.inl rfl)
  have fewer : waiting.erase next ⊆ waiting := List.erase_subset
  have stillAscending : (waiting.erase next).Pairwise (· < ·) :=
    tracks.ascending.sublist List.erase_sublist
  -- Exactly the positions that need the one taken lose an open need.
  have countLeft (position : Nat) (below : position < count) :
      (needs position).countP (· ∈ waiting.erase next) = (needs position).countP (· ∈ waiting) -
        if position ∈ neededBy next then 1 else 0 := by
    rw [countP_erase nodup nextWaits _ (mirrors.needs_nodup position)]
    simp only [mirrors.mem_neededBy, below, true_and]
  constructor
  case ascending => exact stillAscending
  case inside => exact fun position member => tracks.inside position (fewer member)
  case settled =>
    intro position below out
    apply isReady_of_subset fewer
    by_cases same : position = next
    · exact same ▸ nextReady
    · exact tracks.settled position below fun waits => out ((List.mem_erase_of_ne same).mpr waits)
  case counted =>
    intro position below
    rw [Agenda.counts_closeAll _ _ (mirrors.neededBy_nodup next), countLeft position below]
    simp only [tracks.counted position below]
    split <;> rfl
  case ready_eq =>
    -- Both lists are ascending, so it is enough that they have the same members.
    have left :=
      Agenda.ascending_closeAll (neededBy next) { agenda with ready := rest } restAscending
    have right := stillAscending.filter (isReady needs (waiting.erase next))
    apply left.sortedLT.eq_of_mem_iff right.sortedLT
    intro position
    rw [Agenda.mem_ready_closeAll _ _ (mirrors.neededBy_nodup next), List.mem_filter,
      nodup.mem_erase_iff]
    constructor
    -- A position is ready because it was so before, or because its last need was closed now.
    · rintro (wasReady | ⟨needing, last⟩)
      · obtain ⟨waits, free⟩ := (inReady position).mp (Or.inr wasReady)
        exact ⟨⟨Nat.ne_of_gt (restAbove position wasReady), waits⟩, isReady_of_subset fewer free⟩
      · obtain ⟨below, needed⟩ := (mirrors.mem_neededBy next position).mp needing
        -- What still has an open need was not taken, and the position just taken had none.
        have blocked : isReady needs waiting position ≠ true := by
          rw [Ne, isReady_iff, List.countP_eq_zero]
          exact fun none => none next needed (by simpa using nextWaits)
        refine ⟨⟨?_, ?_⟩, ?_⟩
        · rintro rfl
          exact blocked nextReady
        · by_contra out
          exact blocked (tracks.settled position below out)
        · rw [isReady_iff, countLeft position below, if_pos needing]
          have counted := tracks.counted position below
          rw [last] at counted
          rw [← Option.some.inj counted]
    · rintro ⟨⟨apart, waits⟩, free⟩
      have below := tracks.inside position waits
      rw [isReady_iff, countLeft position below] at free
      by_cases blocked : isReady needs waiting position = true
      · exact Or.inl (((inReady position).mpr ⟨waits, blocked⟩).resolve_left apart)
      · rw [isReady_iff] at blocked
        have needing : position ∈ neededBy next := by
          by_contra unrelated
          rw [if_neg unrelated] at free
          exact blocked free
        rw [if_pos needing] at free
        refine Or.inr ⟨needing, ?_⟩
        rw [tracks.counted position below]
        congr 1
        omega

/-- A run of the agenda takes what the search for the earliest ready position takes. -/
theorem run_eq_greedy (mirrors : Mirrors needs neededBy count) {agenda : Agenda}
    (tracks : Tracks needs count waiting agenda) :
    agenda.run neededBy = (greedy needs waiting).1 := by
  -- By induction on what waits; the invariant says what the agenda has ready at every step.
  fun_induction greedy needs waiting generalizing agenda with
  | case1 waiting found =>
    have idle : agenda.ready = [] := by
      rw [tracks.ready_eq, ← List.head?_eq_none_iff, List.head?_filter, found]
    unfold Agenda.run
    split
    next => rfl
    next ready => simp [idle] at ready
  | case2 waiting next found taken left equal ih =>
    have first : agenda.ready.head? = some next := by
      rw [tracks.ready_eq, List.head?_filter, found]
    obtain ⟨rest, ready⟩ := List.head?_eq_some_iff.mp first
    have later := ih (tracks.take mirrors ready)
    rw [equal] at later
    unfold Agenda.run
    split
    next idle => simp [ready] at idle
    next other others again =>
      obtain ⟨rfl, rfl⟩ := List.cons.inj (again.symm.trans ready)
      rw [later]

/-- Counting open needs takes the same positions in the same order. -/
theorem schedule_eq_greedy (mirrors : Mirrors needs neededBy count) :
    schedule needs neededBy count = (greedy needs (List.range count)).1 :=
  run_eq_greedy mirrors (tracks_start mirrors.needs_lt)

end

/-- Nothing is lost: what is taken and what is left over are the waiting positions. -/
theorem greedy_perm (needs : Nat → List Nat) (waiting : List Nat) :
    ((greedy needs waiting).1 ++ (greedy needs waiting).2).Perm waiting := by
  fun_induction greedy needs waiting with
  | case1 waiting found => simp
  | case2 waiting next found taken left equal ih =>
    have member := List.mem_of_find?_eq_some found
    rw [equal] at ih
    exact (List.Perm.cons next ih).trans (List.perm_cons_erase member).symm

/-- Whatever a taken position needs was taken before it, unless it never waited. -/
theorem greedy_needs_taken (needs : Nat → List Nat) (waiting before after : List Nat)
    (position need : Nat) (taken : (greedy needs waiting).1 = before ++ position :: after)
    (needed : need ∈ needs position) (waits : need ∈ waiting) : need ∈ before := by
  fun_induction greedy needs waiting generalizing before with
  | case1 waiting found => simp at taken
  | case2 waiting next found rest left equal ih =>
    rw [equal] at ih
    cases before with
    | nil =>
      -- The position that is taken first was ready when it was taken.
      have same : next = position := (List.cons.inj taken).1
      have ready := List.find?_some found
      simp only [isReady, List.all_eq_true, decide_eq_true_eq] at ready
      exact absurd waits (ready need (same ▸ needed))
    | cons first before =>
      obtain ⟨same, tail⟩ := List.cons.inj taken
      subst same
      -- Either the need is what is taken now, or it waits on and is taken before by induction.
      by_cases self : need = next
      · exact self ▸ List.mem_cons_self
      · exact List.mem_cons_of_mem _ (ih before tail ((List.mem_erase_of_ne self).mpr waits))

/-- A position is left over only if it needs another one that is left over. -/
theorem greedy_left_needs (needs : Nat → List Nat) (waiting : List Nat) :
    ∀ position ∈ (greedy needs waiting).2,
      ∃ need ∈ (greedy needs waiting).2, need ∈ needs position := by
  fun_induction greedy needs waiting with
  | case1 waiting found =>
    intro position member
    have blocked := List.find?_eq_none.mp found position member
    simpa [isReady, and_comm] using blocked
  | case2 waiting next found rest left equal ih =>
    rw [equal] at ih
    exact ih

/-- In a finite collection in which everything is followed by something, something follows
itself. -/
theorem exists_cycle {Node : Type} (follows : Node → Node → Prop) (nodes : List Node)
    (occupied : nodes ≠ []) (endless : ∀ node ∈ nodes, ∃ next ∈ nodes, follows node next) :
    ∃ node ∈ nodes, Relation.TransGen follows node node := by
  by_contra acyclic
  simp only [not_exists, not_and] at acyclic
  -- Without a cycle the members are well-founded, and a minimal one has nothing to follow.
  let later : {node // node ∈ nodes} → {node // node ∈ nodes} → Prop :=
    fun left right => Relation.TransGen follows right.1 left.1
  have irreflexive : Std.Irrefl later := ⟨fun node cycle => acyclic node.1 node.2 cycle⟩
  have transitive : IsTrans _ later := ⟨fun _ _ _ first second => second.trans first⟩
  have finite : Finite {node // node ∈ nodes} := List.finite_toSet nodes
  have wellFounded : WellFounded later := Finite.wellFounded_of_trans_of_irrefl later
  obtain ⟨start, member⟩ := List.exists_mem_of_ne_nil nodes occupied
  obtain ⟨last, _, final⟩ := wellFounded.has_min Set.univ ⟨⟨start, member⟩, trivial⟩
  obtain ⟨next, inside, step⟩ := endless last.1 last.2
  exact final ⟨next, inside⟩ trivial (.single step)

end Rulebook.Dependency
