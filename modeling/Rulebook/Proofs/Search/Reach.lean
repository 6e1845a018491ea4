import Mathlib.Data.List.Perm.Subperm
import Mathlib.Logic.Relation
import Rulebook.Search.BreadthFirst

/-!
# Reachability

A search over a domain that holds every successor finds exactly what can be reached from its
start. Every step takes one node from the queue and moves its fresh successors from the unseen
part of the domain into the queue, so queue and unseen part together lose one node in each step,
and the budget of one step more than the domain has nodes empties the queue.
-/
namespace Rulebook.Search

variable {Node : Type}

/-- A node can be reached from another by following successors. -/
def Reachable (next : Node → List Node) : Node → Node → Prop :=
  Relation.ReflTransGen fun node successor => successor ∈ next node

variable [DecidableEq Node]

/-- A search forgets nothing that it has seen. -/
theorem subset_visit (next : Node → List Node) (steps : Nat) (seen queue : List Node) :
    seen ⊆ visit next steps seen queue := by
  induction steps generalizing seen queue with
  | zero => exact List.Subset.refl seen
  | succ steps ih =>
    cases queue with
    | nil => exact List.Subset.refl seen
    | cons node queue =>
      exact List.Subset.trans (List.subset_append_left _ _) (ih _ _)

/-- Whatever a search finds can be reached from its start. -/
theorem visit_sound (next : Node → List Node) (start : Node) (steps : Nat)
    (seen queue : List Node) (queued : queue ⊆ seen)
    (reached : ∀ node ∈ seen, Reachable next start node) :
    ∀ node ∈ visit next steps seen queue, Reachable next start node := by
  induction steps generalizing seen queue with
  | zero => exact reached
  | succ steps ih =>
    -- A step appends the successors of the node taken, which can be reached through it.
    cases queue with
    | nil => exact reached
    | cons first queue =>
      apply ih
      · intro node member
        rcases List.mem_append.mp member with old | found
        · exact List.mem_append_left _ (queued (List.mem_cons_of_mem _ old))
        · exact List.mem_append_right _ found
      · intro node member
        rcases List.mem_append.mp member with old | found
        · exact reached node old
        · have successor := ((mem_fresh _ _).mp found).1
          exact (reached first (queued List.mem_cons_self)).tail successor

/-- Nodes that are found leave the unseen part of the domain. -/
theorem length_unseen_append (domain seen found : List Node) (distinct : found.Nodup)
    (inside : found ⊆ domain) (unseen : ∀ node ∈ found, node ∉ seen) :
    (domain.filter (· ∉ seen ++ found)).length + found.length
      ≤ (domain.filter (· ∉ seen)).length := by
  -- Of what was unseen, the found nodes are one part and what stays unseen is the other.
  have split := List.length_eq_length_filter_add (l := domain.filter (· ∉ seen)) (· ∈ found)
  have moved : found.length ≤ ((domain.filter (· ∉ seen)).filter (· ∈ found)).length := by
    apply (List.subperm_of_subset distinct ?_).length_le
    intro node member
    simp [member, inside member, unseen node member]
  have kept : (domain.filter (· ∉ seen)).filter (fun node => ! decide (node ∈ found))
      = domain.filter (· ∉ seen ++ found) := by
    rw [List.filter_filter]
    apply List.filter_congr
    intro node _
    simp [Bool.and_comm]
  rw [kept] at split
  omega

/-- Taking a node pays for the fresh successors that wait instead. -/
theorem budget_take {next : Node → List Node} {domain : List Node}
    (covers : ∀ node, next node ⊆ domain) {steps : Nat} {seen queue : List Node} {first : Node}
    (budget : (domain.filter (· ∉ seen)).length + (first :: queue).length ≤ steps + 1) :
    (domain.filter (· ∉ seen ++ fresh seen (next first))).length +
      (queue ++ fresh seen (next first)).length ≤ steps := by
  have shrunk := length_unseen_append domain seen (fresh seen (next first)) (nodup_fresh _ _)
    (fun node member => covers first ((mem_fresh _ _).mp member).1)
    (fun node member => ((mem_fresh _ _).mp member).2)
  simp only [List.length_cons, List.length_append] at budget ⊢
  omega

/-- With enough steps nothing waits in the end: what was seen is closed under successors. -/
theorem visit_closed (next : Node → List Node) (domain : List Node)
    (covers : ∀ node, next node ⊆ domain) (steps : Nat) (seen queue : List Node)
    (budget : (domain.filter (· ∉ seen)).length + queue.length ≤ steps)
    (expanded : ∀ node ∈ seen, node ∈ queue ∨ next node ⊆ seen) :
    ∀ node ∈ visit next steps seen queue, next node ⊆ visit next steps seen queue := by
  induction steps generalizing seen queue with
  | zero =>
    -- Without steps left the budget allows no waiting node.
    have empty : queue = [] := List.length_eq_zero_iff.mp (by omega)
    subst empty
    intro node member
    simpa [visit] using expanded node member
  | succ steps ih =>
    cases queue with
    | nil =>
      intro node member
      simpa [visit] using expanded node member
    | cons first queue =>
      apply ih
      · exact budget_take covers budget
      · intro node member
        rcases List.mem_append.mp member with old | found
        · rcases expanded node old with waiting | done
          · rcases List.mem_cons.mp waiting with rfl | later
            · right
              -- The node that was just taken has its successors seen or found.
              intro successor follows
              by_cases known : successor ∈ seen
              · exact List.mem_append_left _ known
              · exact List.mem_append_right _ ((mem_fresh _ _).mpr ⟨follows, known⟩)
            · exact Or.inl (List.mem_append_left _ later)
          · exact Or.inr (List.Subset.trans done (List.subset_append_left _ _))
        · exact Or.inl (List.mem_append_right _ found)

/-- The search is sound and complete. -/
theorem mem_reach (next : Node → List Node) (domain : List Node)
    (covers : ∀ node, next node ⊆ domain) (start node : Node) :
    node ∈ reach next domain start ↔ Reachable next start node := by
  constructor
  · apply visit_sound next start _ [start] [start] (List.Subset.refl _)
    intro node member
    rw [List.mem_singleton.mp member]
    exact Relation.ReflTransGen.refl
  · intro reachable
    -- What is seen in the end is closed under successors and holds the start.
    have closed := visit_closed next domain covers (domain.length + 1) [start] [start]
      (by simpa using List.length_filter_le _ domain) (by simp)
    induction reachable with
    | refl => exact subset_visit _ _ _ _ List.mem_cons_self
    | tail _ follows ih => exact closed _ ih follows

end Rulebook.Search
