/-!
# Depth-first search for components

Splits a graph into its strongly connected components in one walk. Nodes are numbered as they are
opened, and wait on a stack until their component is complete. The low link of a node is the
least number that is known to stand on the stack and to be reachable from it; a node that is left
with its own number as its low link completes a component, which is all that the stack holds from
that node on.
-/
namespace Rulebook.Search

/-- The state of the walk. The frames are the path to the node that is being explored, with the
successors that were not looked at yet; the deepest frame comes first. -/
structure Walk where
  numbers : Array (Option Nat)
  lows : Array Nat
  opened : Nat := 0
  stack : List Nat := []
  frames : List (Nat × List Nat) := []
  components : List (List Nat) := []

namespace Walk

def start (count : Nat) : Walk where
  numbers := Array.replicate count none
  lows := Array.replicate count 0

def low (walk : Walk) (node : Nat) : Nat :=
  walk.lows.getD node 0

/-- Numbers a node and begins to explore it. -/
def enter (next : Nat → List Nat) (walk : Walk) (node : Nat) : Walk where
  numbers := walk.numbers.setIfInBounds node (some walk.opened)
  lows := walk.lows.setIfInBounds node walk.opened
  opened := walk.opened + 1
  stack := node :: walk.stack
  frames := (node, next node) :: walk.frames
  components := walk.components

def lower (walk : Walk) (node bound : Nat) : Walk :=
  { walk with lows := walk.lows.setIfInBounds node (min (walk.low node) bound) }

/-- Follows one edge. -/
def follow (next : Nat → List Nat) (walk : Walk) (node successor : Nat) : Walk :=
  match walk.numbers[successor]? with
  | some none => walk.enter next successor
  -- What is numbered but not on the stack belongs to a component already.
  | some (some number) => if successor ∈ walk.stack then walk.lower node number else walk
  | none => walk

/-- Takes a component from the stack, down to its first node. -/
def complete (walk : Walk) (node : Nat) : Walk :=
  { walk with
    stack := (walk.stack.dropWhile (· ≠ node)).tail
    components := (walk.stack.takeWhile (· ≠ node) ++ [node]) :: walk.components }

/-- Goes back from a node to the frame below it. -/
def leave (walk : Walk) (node : Nat) : Walk :=
  let lowered := match walk.frames with
    | [] => walk
    | (parent, _) :: _ => walk.lower parent (walk.low node)
  -- A node that reaches nothing earlier on the stack is the first of its component.
  if walk.numbers[node]? = some (some (walk.low node)) then lowered.complete node else lowered

def step (next : Nat → List Nat) (walk : Walk) : Walk :=
  match walk.frames with
  | [] => walk
  | (node, []) :: frames => { walk with frames }.leave node
  | (node, successor :: rest) :: frames =>
    { walk with frames := (node, rest) :: frames }.follow next node successor

/-- The nodes without a number. -/
def unnumbered (walk : Walk) : Nat :=
  walk.numbers.count none

/-- The edges of the frames that were not looked at yet, and the frames themselves. -/
def pending (walk : Walk) : Nat :=
  (walk.frames.flatMap (·.2)).length + walk.frames.length

/-- A node that is opened gets its number for good. -/
theorem unnumbered_enter (next : Nat → List Nat) (walk : Walk) (node : Nat)
    (unknown : walk.numbers[node]? = some none) :
    (walk.enter next node).unnumbered < walk.unnumbered := by
  obtain ⟨inside, value⟩ := Array.getElem?_eq_some_iff.mp unknown
  have occupied := Array.count_pos_iff.mpr (Array.mem_of_getElem value)
  have known : (some walk.opened == (none : Option Nat)) = false := rfl
  simp only [unnumbered, enter, Array.setIfInBounds_def, dif_pos inside, Array.count_set inside,
    value, known, beq_self_eq_true, ite_true]
  simp only [Bool.false_eq_true, ite_false]
  omega

theorem leave_unnumbered (walk : Walk) (node : Nat) :
    (walk.leave node).unnumbered = walk.unnumbered := by
  unfold leave
  simp only
  split <;> split <;> rfl

theorem leave_pending (walk : Walk) (node : Nat) : (walk.leave node).pending = walk.pending := by
  unfold leave
  simp only
  split <;> split <;> simp_all [pending, lower, complete]

/-- Every step opens a node, looks at an edge, or goes back from a node. -/
theorem step_decreases (next : Nat → List Nat) (walk : Walk) (busy : walk.frames ≠ []) :
    Prod.Lex (· < ·) (· < ·) ((walk.step next).unnumbered, (walk.step next).pending)
      (walk.unnumbered, walk.pending) := by
  unfold step
  split
  next empty => exact absurd empty busy
  next node frames held =>
    rw [leave_unnumbered, leave_pending]
    -- Going back takes the frame away and opens nothing.
    apply Prod.Lex.right
    simp [pending, held]
  next node successor rest frames held =>
    unfold follow
    split
    next unknown => exact Prod.Lex.left _ _ (unnumbered_enter next _ successor unknown)
    next number known =>
      split
      · apply Prod.Lex.right
        simp [pending, held, lower]
      · apply Prod.Lex.right
        simp [pending, held]
    next =>
      apply Prod.Lex.right
      simp [pending, held]

/-- Walks until the path is empty. -/
def run (next : Nat → List Nat) (walk : Walk) : Walk :=
  if _busy : walk.frames = [] then walk else run next (walk.step next)
termination_by (walk.unnumbered, walk.pending)
decreasing_by exact step_decreases next walk _busy

/-- Explores everything that can be reached from a node, if it has no number yet. -/
def visit (next : Nat → List Nat) (walk : Walk) (root : Nat) : Walk :=
  if walk.numbers[root]? = some none then run next (walk.enter next root) else walk

end Walk

/-- The strongly connected components of the given nodes, all of which are below the count. -/
def components (next : Nat → List Nat) (count : Nat) (nodes : List Nat) : List (List Nat) :=
  (nodes.foldl (Walk.visit next) (Walk.start count)).components

end Rulebook.Search
