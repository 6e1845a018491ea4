import Mathlib.Data.List.Pairwise
import Rulebook.Proofs.Search.Reach
import Rulebook.Search.DepthFirst

/-!
# The invariant of the depth-first walk

The walk keeps a stack of numbered nodes, some of which are on its path. Whatever waits beside the
path can be reached from a node of the path and reaches a smaller number itself; edges out of the
stack stay in it or lead to components that are complete. Numbering a node, lowering a low link and
leaving a node that reaches a smaller number keep this up.
-/
namespace Rulebook.Search

/-- A component: some nodes, each once, with exactly those that can be reached from them and reach
them again. -/
structure IsComponent (next : Nat → List Nat) (component : List Nat) : Prop where
  occupied : component ≠ []
  distinct : component.Nodup
  complete : ∀ member ∈ component, ∀ node,
    node ∈ component ↔ Reachable next member node ∧ Reachable next node member

namespace Walk

variable {next : Nat → List Nat} {count : Nat} {walk : Walk} {node other : Nat}

/-- The number of a node. -/
def rank (walk : Walk) (node : Nat) : Nat :=
  (walk.numbers.getD node none).getD 0

def IsNumbered (walk : Walk) (node : Nat) : Prop :=
  ∃ number, walk.numbers[node]? = some (some number)

/-- A node is done once its component is complete. -/
def IsDone (walk : Walk) (node : Nat) : Prop :=
  ∃ component ∈ walk.components, node ∈ component

/-- The nodes from the one that is explored back to where the walk began. -/
def path (walk : Walk) : List Nat :=
  walk.frames.map (·.1)

/-- The path begins with the node that is explored. -/
theorem path_cons {rest : List Nat} {frames : List (Nat × List Nat)}
    (held : walk.frames = (node, rest) :: frames) : walk.path = node :: frames.map (·.1) := by
  rw [path, held]
  rfl

theorem rank_eq {number : Nat} (known : walk.numbers[node]? = some (some number)) :
    walk.rank node = number := by
  simp [rank, known]

/-- Entering a node gives it the next number and keeps the others. -/
theorem rank_enter (inside : node < walk.numbers.size) :
    (walk.enter next node).rank other = if other = node then walk.opened else walk.rank other := by
  simp only [rank, enter, Array.getD_eq_getD_getElem?, Array.getElem?_setIfInBounds]
  by_cases same : other = node
  · subst same
    simp [inside]
  · simp [same, Ne.symm same]

/-- Entering a node makes its number its low link and keeps the other links. -/
theorem low_enter (inside : node < walk.lows.size) :
    (walk.enter next node).low other = if other = node then walk.opened else walk.low other := by
  simp only [low, enter, Array.getD_eq_getD_getElem?, Array.getElem?_setIfInBounds]
  by_cases same : other = node
  · subst same
    simp [inside]
  · simp [same, Ne.symm same]

/-- Lowering a low link keeps the other links. -/
theorem low_lower (inside : node < walk.lows.size) (bound : Nat) :
    (walk.lower node bound).low other =
      if other = node then min (walk.low node) bound else walk.low other := by
  simp only [low, lower, Array.getD_eq_getD_getElem?, Array.getElem?_setIfInBounds]
  by_cases same : other = node
  · subst same
    simp [inside]
  · simp [same, Ne.symm same]

/-- Entering a node numbers it and no other. -/
theorem isNumbered_enter (inside : node < walk.numbers.size) :
    (walk.enter next node).IsNumbered other ↔ other = node ∨ walk.IsNumbered other := by
  simp only [IsNumbered, enter, Array.getElem?_setIfInBounds]
  by_cases same : other = node
  · subst same
    simp [inside]
  · simp [same, Ne.symm same]

/-- What holds of the walk between its steps. The edges that are owed were looked at, but have had
no effect yet. -/
structure Consistent (next : Nat → List Nat) (count : Nat) (owed : List (Nat × Nat))
    (walk : Walk) : Prop where
  numbers_size : walk.numbers.size = count
  lows_size : walk.lows.size = count
  rank_lt : ∀ node, walk.IsNumbered node → walk.rank node < walk.opened
  -- The stack holds what is numbered and not done, the greatest number first.
  numbered_iff : ∀ node, walk.IsNumbered node ↔ node ∈ walk.stack ∨ walk.IsDone node
  stack_sorted : walk.stack.Pairwise fun later earlier => walk.rank earlier < walk.rank later
  stack_not_done : ∀ node ∈ walk.stack, ¬ walk.IsDone node
  -- The path lies in the stack, and everything on it leads to the node that is explored.
  path_sorted : walk.path.Pairwise fun deeper higher => walk.rank higher < walk.rank deeper
  path_subset : walk.path ⊆ walk.stack
  path_reaches : walk.path.Pairwise fun deeper higher => Reachable next higher deeper
  frames_subset : ∀ frame ∈ walk.frames, frame.2 ⊆ next frame.1
  -- A low link is the number of something on the stack that the node reaches.
  low_le : ∀ node ∈ walk.stack, walk.low node ≤ walk.rank node
  low_reached : ∀ node ∈ walk.stack,
    ∃ target ∈ walk.stack, walk.rank target = walk.low node ∧ Reachable next node target
  -- Every edge out of the stack is still ahead, is owed, or counts in the low link.
  explored : ∀ node ∈ walk.stack, ∀ successor ∈ next node,
    (∃ frame ∈ walk.frames, frame.1 = node ∧ successor ∈ frame.2) ∨ (node, successor) ∈ owed ∨
      walk.IsNumbered successor ∧ (successor ∈ walk.stack → walk.low node ≤ walk.rank successor)
  -- What waits beside the path hangs below the nearest node of the path with a smaller number.
  covered : ∀ node ∈ walk.stack, node ∉ walk.path → walk.low node < walk.rank node ∧
    ∃ ancestor ∈ walk.path, walk.rank ancestor < walk.rank node ∧
      Reachable next ancestor node ∧ walk.low ancestor ≤ walk.low node ∧
      ∀ other ∈ walk.path, walk.rank other < walk.rank node → walk.rank other ≤ walk.rank ancestor
  -- Nothing leads out of what is done.
  done_closed : ∀ node, walk.IsDone node → ∀ successor ∈ next node, walk.IsDone successor
  components_spec : ∀ component ∈ walk.components, IsComponent next component
  components_disjoint : walk.components.Pairwise List.Disjoint

/-- The walk starts without nodes, so its invariant holds. -/
theorem consistent_start (next : Nat → List Nat) (count : Nat) :
    (start count).Consistent next count [] := by
  have unnumbered (node : Nat) : ¬ (start count).IsNumbered node := by
    rintro ⟨number, known⟩
    simp [start, Array.getElem?_replicate] at known
  constructor
  case numbers_size => simp [start]
  case lows_size => simp [start]
  case rank_lt => exact fun node known => absurd known (unnumbered node)
  case numbered_iff =>
    intro node
    exact ⟨fun known => absurd known (unnumbered node), by simp [start, IsDone]⟩
  all_goals simp [start, IsDone, path]

namespace Consistent

variable {owed : List (Nat × Nat)} (consistent : walk.Consistent next count owed)

include consistent

/-- What waits on the stack is numbered. -/
theorem isNumbered (waiting : node ∈ walk.stack) : walk.IsNumbered node :=
  (consistent.numbered_iff node).mpr (Or.inl waiting)

/-- Only nodes of the graph are numbered. -/
theorem lt_count (known : walk.IsNumbered node) : node < count := by
  obtain ⟨number, found⟩ := known
  rw [← consistent.numbers_size]
  exact (Array.getElem?_eq_some_iff.mp found).1

/-- Nodes on the stack are told apart by their numbers. -/
theorem rank_injective (waiting : node ∈ walk.stack) (otherWaiting : other ∈ walk.stack)
    (equal : walk.rank node = walk.rank other) : node = other := by
  by_contra apart
  have strict : walk.stack.Pairwise fun left right => walk.rank left ≠ walk.rank right :=
    consistent.stack_sorted.imp (fun below => Nat.ne_of_gt below)
  have symmetric : Std.Symm fun left right => walk.rank left ≠ walk.rank right :=
    ⟨fun _ _ different => different.symm⟩
  exact strict.forall waiting otherWaiting apart equal

/-- Whatever can be reached from a node that is done is done. -/
theorem done_reaches (done : walk.IsDone node) (chain : Reachable next node other) :
    walk.IsDone other := by
  induction chain with
  | refl => exact done
  | tail _ edge ih => exact consistent.done_closed _ ih _ edge

omit consistent in
/-- An edge has had its effect once its end is numbered and, on the stack, counts as reached. -/
theorem settle {successor : Nat}
    (consistent : walk.Consistent next count ((node, successor) :: owed))
    (known : walk.IsNumbered successor)
    (reached : successor ∈ walk.stack → walk.low node ≤ walk.rank successor) :
    walk.Consistent next count owed := by
  refine { consistent with explored := ?_ }
  intro other waiting target edge
  -- An edge is still ahead, or it is this one, or its effect was there before.
  rcases consistent.explored other waiting target edge with left | owing | effect
  · exact Or.inl left
  · rcases List.mem_cons.mp owing with same | owing
    · cases same
      exact Or.inr (Or.inr ⟨known, reached⟩)
    · exact Or.inr (Or.inl owing)
  · exact Or.inr (Or.inr effect)

/-- Looking at an edge takes it from its frame. -/
theorem owe {successor : Nat} {rest : List Nat} {frames : List (Nat × List Nat)}
    (held : walk.frames = (node, successor :: rest) :: frames) :
    { walk with frames := (node, rest) :: frames }.Consistent next count
      ((node, successor) :: owed) := by
  have samePath : { walk with frames := (node, rest) :: frames }.path = walk.path := by
    simp [path, held]
  refine { consistent with
    frames_subset := ?_
    explored := ?_
    path_sorted := samePath ▸ consistent.path_sorted
    path_subset := samePath ▸ consistent.path_subset
    path_reaches := samePath ▸ consistent.path_reaches
    covered := samePath ▸ consistent.covered }
  · intro frame member
    rcases List.mem_cons.mp member with rfl | below
    · have all := consistent.frames_subset (node, successor :: rest) (by simp [held])
      exact List.subset_of_cons_subset all
    · exact consistent.frames_subset frame (by simp [held, below])
  · intro other waiting target edge
    -- Edges ahead of the same frame stay ahead, except for the one that is looked at.
    rcases consistent.explored other waiting target edge with
      ⟨frame, member, same, left⟩ | owing | effect
    · rw [held] at member
      rcases List.mem_cons.mp member with rfl | below
      · subst same
        rcases List.mem_cons.mp left with rfl | later
        · exact Or.inr (Or.inl List.mem_cons_self)
        · exact Or.inl ⟨_, List.mem_cons_self, rfl, later⟩
      · exact Or.inl ⟨frame, List.mem_cons_of_mem _ below, same, left⟩
    · exact Or.inr (Or.inl (List.mem_cons_of_mem _ owing))
    · exact Or.inr (Or.inr effect)

/-- A node that was not numbered can be entered from the node that is explored. -/
theorem enter (inside : node < count) (unknown : ¬ walk.IsNumbered node)
    (reached : ∀ higher ∈ walk.path, Reachable next higher node) :
    (walk.enter next node).Consistent next count owed := by
  have inNumbers : node < walk.numbers.size := by rw [consistent.numbers_size]; exact inside
  have inLows : node < walk.lows.size := by rw [consistent.lows_size]; exact inside
  -- Nothing on the stack is the new node, so its numbers and low links stay what they were.
  have fresh : ∀ other ∈ walk.stack, other ≠ node := by
    rintro other waiting rfl
    exact unknown (consistent.isNumbered waiting)
  have keptRank : ∀ other ∈ walk.stack, (walk.enter next node).rank other = walk.rank other := by
    intro other waiting
    rw [rank_enter inNumbers, if_neg (fresh other waiting)]
  have keptLow : ∀ other ∈ walk.stack, (walk.enter next node).low other = walk.low other := by
    intro other waiting
    rw [low_enter inLows, if_neg (fresh other waiting)]
  have ownRank : (walk.enter next node).rank node = walk.opened := by
    rw [rank_enter inNumbers, if_pos rfl]
  have ownLow : (walk.enter next node).low node = walk.opened := by
    rw [low_enter inLows, if_pos rfl]
  have above : ∀ other ∈ walk.stack, walk.rank other < walk.opened :=
    fun other waiting => consistent.rank_lt other (consistent.isNumbered waiting)
  constructor
  case numbers_size => simp [Walk.enter, consistent.numbers_size]
  case lows_size => simp [Walk.enter, consistent.lows_size]
  case rank_lt =>
    intro other known
    rw [isNumbered_enter inNumbers] at known
    rw [rank_enter inNumbers]
    change _ < walk.opened + 1
    split
    · omega
    next apart =>
      have := consistent.rank_lt other (known.resolve_left apart)
      omega
  case numbered_iff =>
    intro other
    rw [isNumbered_enter inNumbers, consistent.numbered_iff]
    simp [Walk.enter, IsDone, or_assoc]
  case stack_sorted =>
    refine List.pairwise_cons.mpr ⟨?_, ?_⟩
    · intro other waiting
      rw [keptRank other waiting, ownRank]
      exact above other waiting
    · refine consistent.stack_sorted.imp_of_mem ?_
      intro later earlier laterIn earlierIn below
      rwa [keptRank later laterIn, keptRank earlier earlierIn]
  case stack_not_done =>
    intro other waiting done
    rcases List.mem_cons.mp waiting with rfl | waiting
    · exact unknown ((consistent.numbered_iff other).mpr (Or.inr done))
    · exact consistent.stack_not_done other waiting done
  case path_sorted =>
    refine List.pairwise_cons.mpr ⟨?_, ?_⟩
    · intro higher member
      have waiting := consistent.path_subset member
      rw [keptRank higher waiting, ownRank]
      exact above higher waiting
    · refine consistent.path_sorted.imp_of_mem ?_
      intro deeper higher deeperIn higherIn below
      rwa [keptRank deeper (consistent.path_subset deeperIn),
        keptRank higher (consistent.path_subset higherIn)]
  case path_subset => exact List.cons_subset_cons node consistent.path_subset
  case path_reaches => exact List.pairwise_cons.mpr ⟨reached, consistent.path_reaches⟩
  case frames_subset =>
    intro frame member
    rcases List.mem_cons.mp member with rfl | below
    · exact List.Subset.refl _
    · exact consistent.frames_subset frame below
  case low_le =>
    intro other waiting
    rcases List.mem_cons.mp waiting with rfl | waiting
    · exact Nat.le_of_eq (ownLow.trans ownRank.symm)
    · rw [keptLow other waiting, keptRank other waiting]
      exact consistent.low_le other waiting
  case low_reached =>
    intro other waiting
    rcases List.mem_cons.mp waiting with rfl | waiting
    · exact ⟨other, List.mem_cons_self, by rw [ownLow, ownRank], .refl⟩
    · obtain ⟨target, targetIn, equal, chain⟩ := consistent.low_reached other waiting
      refine ⟨target, List.mem_cons_of_mem _ targetIn, ?_, chain⟩
      rwa [keptLow other waiting, keptRank target targetIn]
  case explored =>
    intro other waiting successor edge
    rcases List.mem_cons.mp waiting with rfl | waiting
    -- All edges of the new node are still ahead.
    · exact Or.inl ⟨(other, next other), List.mem_cons_self, rfl, edge⟩
    rcases consistent.explored other waiting successor edge with
      ⟨frame, member, same, left⟩ | owing | ⟨known, effect⟩
    · exact Or.inl ⟨frame, List.mem_cons_of_mem _ member, same, left⟩
    · exact Or.inr (Or.inl owing)
    · refine Or.inr (Or.inr ⟨(isNumbered_enter inNumbers).mpr (Or.inr known), ?_⟩)
      intro successorIn
      rcases List.mem_cons.mp successorIn with rfl | successorIn
      · exact absurd known unknown
      · rw [keptLow other waiting, keptRank successor successorIn]
        exact effect successorIn
  case covered =>
    intro other waiting beside
    have apart : other ≠ node := fun same => beside (same ▸ List.mem_cons_self)
    have waits := (List.mem_cons.mp waiting).resolve_left apart
    obtain ⟨lower, ancestor, member, below, chain, lows, nearest⟩ :=
      consistent.covered other waits fun inside => beside (List.mem_cons_of_mem _ inside)
    have ancestorIn := consistent.path_subset member
    rw [keptLow other waits, keptRank other waits]
    refine ⟨lower, ancestor, List.mem_cons_of_mem _ member, ?_, chain, ?_, ?_⟩
    · rwa [keptRank ancestor ancestorIn]
    · rwa [keptLow ancestor ancestorIn]
    · intro candidate candidateIn smaller
      rw [keptRank ancestor ancestorIn]
      rcases List.mem_cons.mp candidateIn with rfl | candidateIn
      · -- The node that was just entered has the greatest number.
        rw [ownRank] at smaller
        have := above other waits
        omega
      · rw [keptRank candidate (consistent.path_subset candidateIn)] at smaller ⊢
        exact nearest candidate candidateIn smaller
  case done_closed => exact consistent.done_closed
  case components_spec => exact consistent.components_spec
  case components_disjoint => exact consistent.components_disjoint

/-- The low link of a node on the path can be lowered to any number that it reaches. -/
theorem lower (member : node ∈ walk.path) (target : Nat) (targetIn : target ∈ walk.stack)
    (reached : Reachable next node target) :
    (walk.lower node (walk.rank target)).Consistent next count owed := by
  have nodeIn := consistent.path_subset member
  have inLows : node < walk.lows.size := by
    rw [consistent.lows_size]
    exact consistent.lt_count (consistent.isNumbered nodeIn)
  have notAbove (other : Nat) :
      (walk.lower node (walk.rank target)).low other ≤ walk.low other := by
    rw [low_lower inLows]
    split
    next same => exact same ▸ Nat.min_le_left _ _
    next => exact Nat.le_refl _
  refine { consistent with
    lows_size := by simp [Walk.lower, consistent.lows_size]
    low_le := fun other waiting => Nat.le_trans (notAbove other) (consistent.low_le other waiting)
    low_reached := ?_
    explored := ?_
    covered := ?_ }
  · intro other waiting
    rw [low_lower inLows]
    split
    next same =>
      subst same
      -- The low link stays what it was, or it is now the number that was reached.
      rcases Nat.le_total (walk.low other) (walk.rank target) with old | new
      · rw [Nat.min_eq_left old]
        exact consistent.low_reached other waiting
      · rw [Nat.min_eq_right new]
        exact ⟨target, targetIn, rfl, reached⟩
    next => exact consistent.low_reached other waiting
  · intro other waiting successor edge
    rcases consistent.explored other waiting successor edge with left | owing | ⟨known, effect⟩
    · exact Or.inl left
    · exact Or.inr (Or.inl owing)
    · exact Or.inr (Or.inr ⟨known, fun inside => Nat.le_trans (notAbove other) (effect inside)⟩)
  · intro other waiting beside
    obtain ⟨lower, ancestor, ancestorIn, below, chain, lows, nearest⟩ :=
      consistent.covered other waiting beside
    -- The lowered node is on the path, so what waits beside it keeps its low link.
    have apart : other ≠ node := fun same => beside (same ▸ member)
    have kept : (walk.lower node (walk.rank target)).low other = walk.low other := by
      rw [low_lower inLows, if_neg apart]
    rw [kept]
    exact ⟨lower, ancestor, ancestorIn, below, chain, Nat.le_trans (notAbove ancestor) lows,
      nearest⟩

section

variable {rest : List Nat} {frames : List (Nat × List Nat)}
  (held : walk.frames = (node, rest) :: frames)

include held

/-- The node that is explored is on the stack. -/
theorem head_waiting : node ∈ walk.stack := by
  apply consistent.path_subset
  rw [path_cons held]
  exact List.mem_cons_self

/-- On the path, the node that is explored has the greatest number. -/
theorem rank_lt_head (member : other ∈ frames.map (·.1)) : walk.rank other < walk.rank node := by
  have sorted := consistent.path_sorted
  rw [path_cons held] at sorted
  exact List.rel_of_pairwise_cons sorted member

theorem rank_le_head (member : other ∈ walk.path) : walk.rank other ≤ walk.rank node := by
  rw [path_cons held] at member
  rcases List.mem_cons.mp member with rfl | further
  · exact Nat.le_refl _
  · exact Nat.le_of_lt (consistent.rank_lt_head held further)

/-- Everything on the path reaches the node that is explored. -/
theorem reachable_head (member : other ∈ walk.path) : Reachable next other node := by
  have reaches := consistent.path_reaches
  rw [path_cons held] at reaches member
  rcases List.mem_cons.mp member with rfl | further
  · exact .refl
  · exact List.rel_of_pairwise_cons reaches further

end

/-- Once a frame is used up, the edges that are ahead are those of the frames below it. -/
theorem explored_below {frames : List (Nat × List Nat)} (held : walk.frames = (node, []) :: frames)
    (waiting : other ∈ walk.stack) {successor : Nat} (edge : successor ∈ next other) :
    (∃ frame ∈ frames, frame.1 = other ∧ successor ∈ frame.2) ∨ (other, successor) ∈ owed ∨
      walk.IsNumbered successor ∧
        (successor ∈ walk.stack → walk.low other ≤ walk.rank successor) := by
  rcases consistent.explored other waiting successor edge with ⟨frame, member, same, left⟩ | effect
  · rw [held] at member
    rcases List.mem_cons.mp member with rfl | below
    · cases left
    · exact Or.inl ⟨frame, below, same, left⟩
  · exact Or.inr effect

/-- A node that reaches a smaller number waits beside the path when it is left. -/
theorem pop {parent : Nat} {rest : List Nat} {frames : List (Nat × List Nat)}
    (held : walk.frames = (node, []) :: (parent, rest) :: frames)
    (lowers : walk.low node < walk.rank node) (handed : walk.low parent ≤ walk.low node) :
    { walk with frames := (parent, rest) :: frames }.Consistent next count owed := by
  have wholePath := path_cons held
  have sorted := consistent.path_sorted
  have reaches := consistent.path_reaches
  have subset := consistent.path_subset
  rw [wholePath] at sorted reaches subset
  refine { consistent with
    path_sorted := (List.pairwise_cons.mp sorted).2
    path_subset := (List.cons_subset.mp subset).2
    path_reaches := (List.pairwise_cons.mp reaches).2
    frames_subset := fun frame member => consistent.frames_subset frame (by
      rw [held]
      exact List.mem_cons_of_mem _ member)
    explored := fun other waiting successor edge => consistent.explored_below held waiting edge
    covered := ?_ }
  have onPath : parent ∈ walk.path := by simp [wholePath]
  have parentBelow := consistent.rank_lt_head held List.mem_cons_self
  have parentReaches := consistent.reachable_head held onPath
  -- Without the node that is left, the parent has the greatest number on the path.
  have parentHighest : ∀ higher ∈ parent :: frames.map (·.1),
      walk.rank higher ≤ walk.rank parent := by
    intro higher member
    rcases List.mem_cons.mp member with rfl | further
    · exact Nat.le_refl _
    · exact Nat.le_of_lt (List.rel_of_pairwise_cons (List.pairwise_cons.mp sorted).2 further)
  intro other waiting beside
  by_cases same : other = node
  -- The node that is left was the only one on the path above its parent.
  · subst same
    exact ⟨lowers, parent, List.mem_cons_self, parentBelow, parentReaches, handed,
      fun higher member _ => parentHighest higher member⟩
  · have outside : other ∉ walk.path := by
      rw [wholePath]
      exact fun member => (List.mem_cons.mp member).elim same beside
    obtain ⟨lower, ancestor, member, below, chain, lows, nearest⟩ :=
      consistent.covered other waiting outside
    rw [wholePath] at member nearest
    refine ⟨lower, ?_⟩
    rcases List.mem_cons.mp member with rfl | further
    · -- What was covered by the node that is left is covered by its parent now.
      exact ⟨parent, List.mem_cons_self, Nat.lt_trans parentBelow below,
        parentReaches.trans chain, Nat.le_trans handed lows,
        fun higher member _ => parentHighest higher member⟩
    · exact ⟨ancestor, further, below, chain, lows,
        fun higher member smaller => nearest higher (List.mem_cons_of_mem _ member) smaller⟩

end Consistent

end Walk

end Rulebook.Search
