/-!
# Breadth-first search

The nodes that can be reached from a start by following successors, in the order in which the
search finds them, so the nearest come first. Each step takes one node from the queue, and a node
enters the queue once; a list that holds every successor therefore bounds the number of steps,
and cycles do no harm.
-/
namespace Rulebook.Search

variable {Node : Type} [DecidableEq Node]

/-- The nodes of a list that were not seen before, each once. -/
def fresh (seen : List Node) : List Node → List Node
  | [] => []
  | node :: rest =>
    if node ∈ seen then fresh seen rest else node :: fresh (node :: seen) rest

theorem mem_fresh {node : Node} (seen nodes : List Node) :
    node ∈ fresh seen nodes ↔ node ∈ nodes ∧ node ∉ seen := by
  induction nodes generalizing seen with
  | nil => simp [fresh]
  | cons first rest ih =>
    simp only [fresh]
    split
    · rw [ih]
      grind
    · rw [List.mem_cons, ih]
      grind

theorem nodup_fresh (seen nodes : List Node) : (fresh seen nodes).Nodup := by
  induction nodes generalizing seen with
  | nil => simp [fresh]
  | cons first rest ih =>
    simp only [fresh]
    split
    · exact ih seen
    · exact List.nodup_cons.mpr ⟨by simp [mem_fresh], ih _⟩

/-- Takes nodes from the queue and adds their fresh successors to what is seen and to the queue,
for a number of steps. -/
def visit (next : Node → List Node) : (steps : Nat) → (seen queue : List Node) → List Node
  | 0, seen, _ => seen
  | _ + 1, seen, [] => seen
  | steps + 1, seen, node :: queue =>
    -- New nodes wait at the back, so nearer ones are always taken first.
    let found := fresh seen (next node)
    visit next steps (seen ++ found) (queue ++ found)

theorem nodup_visit (next : Node → List Node) (steps : Nat) (seen queue : List Node)
    (distinct : seen.Nodup) : (visit next steps seen queue).Nodup := by
  induction steps generalizing seen queue with
  | zero => exact distinct
  | succ steps ih =>
    cases queue with
    | nil => exact distinct
    | cons node queue =>
      refine ih _ _ (List.nodup_append.mpr ⟨distinct, nodup_fresh _ _, ?_⟩)
      rintro a ha b hb rfl
      exact ((mem_fresh _ _).mp hb).2 ha

/-- The start and every node reachable from it. The domain holds every node that is a successor
of some node. -/
def reach (next : Node → List Node) (domain : List Node) (start : Node) : List Node :=
  visit next (domain.length + 1) [start] [start]

theorem nodup_reach (next : Node → List Node) (domain : List Node) (start : Node) :
    (reach next domain start).Nodup :=
  nodup_visit next _ _ _ (by simp)

end Rulebook.Search
