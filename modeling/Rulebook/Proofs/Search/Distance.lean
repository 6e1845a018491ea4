import Mathlib.Order.Lattice.Nat
import Rulebook.Proofs.Search.Reach

/-!
# Distances in a breadth-first search

The distance of a node is the least number of steps that lead to it. The nodes that wait in the
queue are at most one step apart, and whatever was not seen yet is farther than the first of them.
So the fresh successors of the node that is taken are exactly one step farther than it, and the
search lists nodes in non-decreasing distance. It stops by itself: further steps find nothing.
-/
namespace Rulebook.Search

variable {Node : Type}

/-- A node can be reached by following successors in a number of steps. -/
inductive ReachableIn (next : Node → List Node) (start : Node) : ℕ → Node → Prop where
  | start : ReachableIn next start 0 start
  | step {steps : ℕ} {node successor : Node} (reached : ReachableIn next start steps node)
      (follows : successor ∈ next node) : ReachableIn next start (steps + 1) successor

/-- The least number of steps in which a node can be reached. -/
noncomputable def distance (next : Node → List Node) (start node : Node) : ℕ :=
  sInf {steps | ReachableIn next start steps node}

section

variable {next : Node → List Node} {start node successor : Node}

theorem ReachableIn.reachable {steps : ℕ} (reached : ReachableIn next start steps node) :
    Reachable next start node := by
  induction reached with
  | start => exact .refl
  | step _ follows ih => exact ih.tail follows

theorem ReachableIn.distance_le {steps : ℕ} (reached : ReachableIn next start steps node) :
    distance next start node ≤ steps :=
  Nat.sInf_le reached

/-- A node that can be reached is reached in its distance. -/
theorem Reachable.in_distance (reachable : Reachable next start node) :
    ReachableIn next start (distance next start node) node := by
  have counted : ∃ steps, ReachableIn next start steps node := by
    induction reachable with
    | refl => exact ⟨0, .start⟩
    | tail _ follows ih =>
      obtain ⟨steps, reached⟩ := ih
      exact ⟨steps + 1, reached.step follows⟩
  exact Nat.sInf_mem counted

/-- A successor is at most one step farther. -/
theorem distance_successor_le (reachable : Reachable next start node)
    (follows : successor ∈ next node) :
    distance next start successor ≤ distance next start node + 1 :=
  -- One step more on a shortest way is a way, though maybe not a shortest one.
  (reachable.in_distance.step follows).distance_le

/-- Some node before a node on a shortest way to it is one step nearer. -/
theorem exists_nearer (reachable : Reachable next start node) (other : node ≠ start) :
    ∃ nearer, Reachable next start nearer ∧ node ∈ next nearer ∧
      distance next start node = distance next start nearer + 1 := by
  have shortest := reachable.in_distance
  generalize length : distance next start node = steps at shortest
  cases shortest with
  | start => exact absurd rfl other
  | step reached follows =>
    have far := distance_successor_le reached.reachable follows
    have near := reached.distance_le
    exact ⟨_, reached.reachable, follows, by omega⟩

end

/-- A search that has taken some nodes from the queue while others wait there: it has seen these and
no others, nearest first, and knows all successors of what was taken. -/
structure Spreads (next : Node → List Node) (start : Node) (taken queue : List Node) : Prop where
  started : start ∈ taken ++ queue
  reached : ∀ node ∈ taken ++ queue, Reachable next start node
  expanded : ∀ node ∈ taken, next node ⊆ taken ++ queue
  sorted : (taken ++ queue).Pairwise fun near far =>
    distance next start near ≤ distance next start far
  narrow : ∀ near ∈ queue, ∀ far ∈ queue, distance next start far ≤ distance next start near + 1

namespace Spreads

variable {next : Node → List Node} {start first : Node} {taken queue : List Node}

/-- At the beginning only the start waits. -/
theorem begin (next : Node → List Node) (start : Node) : Spreads next start [] [start] where
  started := List.mem_singleton_self start
  reached node member := List.mem_singleton.mp member ▸ Relation.ReflTransGen.refl
  expanded := List.forall_mem_nil _
  sorted := List.pairwise_singleton _ _
  narrow near nearWaits far farWaits := by
    rw [List.mem_singleton.mp nearWaits, List.mem_singleton.mp farWaits]
    exact Nat.le_succ _

/-- No node that waits is nearer than the first. -/
theorem first_le (spreads : Spreads next start taken (first :: queue)) {node : Node}
    (waits : node ∈ first :: queue) : distance next start first ≤ distance next start node := by
  have waiting := (List.pairwise_append.mp spreads.sorted).2.1
  rcases List.mem_cons.mp waits with rfl | behind
  · exact Nat.le_refl _
  · exact (List.pairwise_cons.mp waiting).1 node behind

/-- What was seen is at most one step farther than the first node that waits. -/
theorem le_first (spreads : Spreads next start taken (first :: queue)) {node : Node}
    (seen : node ∈ taken ++ first :: queue) :
    distance next start node ≤ distance next start first + 1 := by
  rcases List.mem_append.mp seen with before | waits
  · have le := (List.pairwise_append.mp spreads.sorted).2.2 node before first List.mem_cons_self
    exact Nat.le_succ_of_le le
  · exact spreads.narrow first List.mem_cons_self node waits

/-- What was not seen is farther than the first node that waits. -/
theorem first_lt (spreads : Spreads next start taken (first :: queue)) {node : Node}
    (reachable : Reachable next start node) (unseen : node ∉ taken ++ first :: queue) :
    distance next start first < distance next start node := by
  -- Back along a shortest way, which starts with what was seen and leaves it from the queue.
  induction length : distance next start node using Nat.strong_induction_on generalizing node with
  | _ steps ih =>
    obtain ⟨nearer, nearerReachable, follows, far⟩ := exists_nearer reachable
      (fun same => unseen (same ▸ spreads.started))
    by_cases seen : nearer ∈ taken ++ first :: queue
    · rcases List.mem_append.mp seen with before | waits
      · exact absurd (spreads.expanded nearer before follows) unseen
      · have near := spreads.first_le waits
        omega
    · have near := ih _ (by omega) nearerReachable seen rfl
      omega

variable [DecidableEq Node]

/-- Fresh successors of the first node that waits are one step farther than it. -/
theorem distance_fresh (spreads : Spreads next start taken (first :: queue)) {node : Node}
    (found : node ∈ fresh (taken ++ first :: queue) (next first)) :
    Reachable next start node ∧ distance next start node = distance next start first + 1 := by
  obtain ⟨follows, unseen⟩ := (mem_fresh _ _).mp found
  have firstReachable := spreads.reached first (by simp)
  have reachable : Reachable next start node := firstReachable.tail follows
  have near := distance_successor_le firstReachable follows
  have far := spreads.first_lt reachable unseen
  exact ⟨reachable, by omega⟩

/-- Taking the first node and queueing its fresh successors keeps all this up. -/
theorem take (spreads : Spreads next start taken (first :: queue)) :
    Spreads next start (taken ++ [first])
      (queue ++ fresh (taken ++ first :: queue) (next first)) := by
  have seen_eq : taken ++ [first] ++ (queue ++ fresh (taken ++ first :: queue) (next first)) =
      (taken ++ first :: queue) ++ fresh (taken ++ first :: queue) (next first) := by simp
  constructor
  case started =>
    rw [seen_eq]
    exact List.mem_append_left _ spreads.started
  case reached =>
    rw [seen_eq]
    intro node member
    rcases List.mem_append.mp member with old | found
    · exact spreads.reached node old
    · exact (spreads.distance_fresh found).1
  case expanded =>
    rw [seen_eq]
    intro node member successor follows
    rcases List.mem_append.mp member with before | last
    · exact List.mem_append_left _ (spreads.expanded node before follows)
    · rw [List.mem_singleton.mp last] at follows
      -- Successors of the node taken were seen before or are found now.
      by_cases known : successor ∈ taken ++ first :: queue
      · exact List.mem_append_left _ known
      · exact List.mem_append_right _ ((mem_fresh _ _).mpr ⟨follows, known⟩)
  case sorted =>
    rw [seen_eq]
    refine List.pairwise_append.mpr ⟨spreads.sorted, ?_, fun near nearSeen far found => ?_⟩
    · refine List.pairwise_of_forall_mem_list fun near nearFound far farFound => ?_
      rw [(spreads.distance_fresh nearFound).2, (spreads.distance_fresh farFound).2]
    · rw [(spreads.distance_fresh found).2]
      exact spreads.le_first nearSeen
  case narrow =>
    -- All that waits now lies between the node that was taken and one step beyond it.
    have between (node : Node)
        (waits : node ∈ queue ++ fresh (taken ++ first :: queue) (next first)) :
        distance next start first ≤ distance next start node ∧
          distance next start node ≤ distance next start first + 1 := by
      rcases List.mem_append.mp waits with old | found
      · have behind := List.mem_cons_of_mem first old
        exact ⟨spreads.first_le behind, spreads.le_first (List.mem_append_right _ behind)⟩
      · have far := (spreads.distance_fresh found).2
        omega
    intro near nearWaits far farWaits
    have low := (between near nearWaits).1
    have high := (between far farWaits).2
    omega

end Spreads

section

variable [DecidableEq Node] {next : Node → List Node}

/-- However many steps a search takes, it has seen the nearest nodes first. -/
theorem visit_sorted {start : Node} (steps : ℕ) {taken queue : List Node}
    (spreads : Spreads next start taken queue) :
    (visit next steps (taken ++ queue) queue).Pairwise fun near far =>
      distance next start near ≤ distance next start far := by
  induction steps generalizing taken queue with
  | zero => exact spreads.sorted
  | succ steps ih =>
    cases queue with
    | nil => exact spreads.sorted
    | cons first queue => simpa [visit] using ih spreads.take

/-- The search lists nodes in non-decreasing distance from its start. -/
theorem reach_sorted (next : Node → List Node) (domain : List Node) (start : Node) :
    (reach next domain start).Pairwise fun near far =>
      distance next start near ≤ distance next start far :=
  visit_sorted (domain.length + 1) (.begin next start)

/-- The search finds its start first. -/
theorem exists_reach_eq_cons (next : Node → List Node) (domain : List Node) (start : Node) :
    ∃ others, reach next domain start = start :: others := by
  have front (steps : ℕ) (seen queue : List Node) : seen <+: visit next steps seen queue := by
    induction steps generalizing seen queue with
    | zero => exact List.prefix_rfl
    | succ steps ih =>
      cases queue with
      | nil => exact List.prefix_rfl
      | cons first queue => exact (List.prefix_append _ _).trans (ih _ _)
  obtain ⟨others, split⟩ := front (domain.length + 1) [start] [start]
  exact ⟨others, split.symm⟩

/-- With enough steps the queue is empty in the end, so further steps change nothing. -/
theorem visit_add {domain : List Node} (covers : ∀ node, next node ⊆ domain) {steps : ℕ} (more : ℕ)
    {seen queue : List Node}
    (budget : (domain.filter (· ∉ seen)).length + queue.length ≤ steps) :
    visit next (steps + more) seen queue = visit next steps seen queue := by
  induction steps generalizing seen queue with
  | zero =>
    obtain rfl : queue = [] := List.length_eq_zero_iff.mp (by omega)
    cases more with
    | zero => rfl
    | succ more => rfl
  | succ steps ih =>
    rw [Nat.succ_add]
    cases queue with
    | nil => rfl
    | cons first queue => exact ih (budget_take covers budget)

/-- The budget of a search is enough: more steps find nothing more. -/
theorem visit_eq_reach {domain : List Node} (covers : ∀ node, next node ⊆ domain) (more : ℕ)
    (start : Node) :
    visit next (domain.length + 1 + more) [start] [start] = reach next domain start :=
  visit_add covers more (by simpa using List.length_filter_le _ domain)

end

end Rulebook.Search
