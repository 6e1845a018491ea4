/-!
# Schedules

Positions wait until everything they need is done. For each of them the schedule counts the needs
that are still open, and it always takes the earliest position that has none, so positions that are
independent of each other keep their order. Where positions need each other, they and all that need
them are never taken.
-/
namespace Rulebook.Dependency

/-- Adds a position to ascending ones, unless it is among them. -/
def insertAscending (position : Nat) : List Nat → List Nat
  | [] => [position]
  | first :: rest =>
    if position < first then position :: first :: rest
    else if position = first then first :: rest
    else first :: insertAscending position rest

theorem length_insertAscending (position : Nat) (ready : List Nat) :
    (insertAscending position ready).length ≤ ready.length + 1 := by
  induction ready with
  | nil => simp [insertAscending]
  | cons first rest ih =>
    unfold insertAscending
    split
    · simp
    · split <;> simp_all

/-- The number of open needs of each position, and the positions that can be taken, ascending. -/
structure Agenda where
  counts : Array Nat
  ready : List Nat

namespace Agenda

def start (needs : Nat → List Nat) (count : Nat) : Agenda where
  counts := ((List.range count).map fun position => (needs position).length).toArray
  ready := (List.range count).filter fun position => (needs position).length = 0

/-- Closes one need of a position, which can be taken after its last one. -/
def close (agenda : Agenda) (position : Nat) : Agenda :=
  match agenda.counts[position]? with
  | some (count + 1) =>
    { counts := agenda.counts.setIfInBounds position count
      ready := if count = 0 then insertAscending position agenda.ready else agenda.ready }
  | _ => agenda

/-- Every need that is closed makes at most one position ready. -/
def effort (agenda : Agenda) : Nat :=
  agenda.counts.toList.foldr (· + ·) 0 + agenda.ready.length

/-- Replacing one count changes the sum by the difference. -/
theorem total_set (counts : List Nat) (position value count : Nat)
    (found : counts[position]? = some count) :
    (counts.set position value).foldr (· + ·) 0 + count = counts.foldr (· + ·) 0 + value := by
  induction counts generalizing position with
  | nil => simp at found
  | cons first rest ih =>
    cases position with
    | zero =>
      obtain rfl : first = count := by simpa using found
      simp only [List.set_cons_zero, List.foldr_cons]
      omega
    | succ position =>
      have := ih position (by simpa using found)
      simp only [List.set_cons_succ, List.foldr_cons]
      omega

/-- Closing a need does not add to the effort, since a position is ready only after its last one. -/
theorem effort_close (agenda : Agenda) (position : Nat) :
    (agenda.close position).effort ≤ agenda.effort := by
  unfold close
  split
  next count found =>
    have lowered := total_set agenda.counts.toList position count (count + 1) (by simpa using found)
    -- At most one position gets ready, and then one need less is open.
    have added := length_insertAscending position agenda.ready
    simp only [effort, Array.toList_setIfInBounds]
    split <;> omega
  next => exact Nat.le_refl _

theorem effort_closeAll (positions : List Nat) (agenda : Agenda) :
    (positions.foldl close agenda).effort ≤ agenda.effort := by
  induction positions generalizing agenda with
  | nil => exact Nat.le_refl _
  | cons position rest ih => exact Nat.le_trans (ih _) (effort_close agenda position)

/-- Takes positions as long as any is ready. -/
def run (neededBy : Nat → List Nat) (agenda : Agenda) : List Nat :=
  match _ready : agenda.ready with
  | [] => []
  | next :: rest =>
    next :: run neededBy ((neededBy next).foldl close { agenda with ready := rest })
termination_by agenda.effort
decreasing_by
  refine Nat.lt_of_le_of_lt (effort_closeAll _ _) ?_
  simp [effort, _ready]

end Agenda

/-- The positions below a count that can be taken, in the order in which they are. -/
def schedule (needs neededBy : Nat → List Nat) (count : Nat) : List Nat :=
  (Agenda.start needs count).run neededBy

end Rulebook.Dependency
