import Rulebook.Proofs.Search.Walk

/-!
# The search finds strongly connected components

A node that is left with its own number as its low link cannot reach a smaller one, so it begins a
component, and everything above it on the stack belongs to that component. Each step of the walk
keeps its invariant, and the walk ends with every node in a component.
-/
namespace Rulebook.Search

namespace Walk

variable {next : Nat → List Nat} {count : Nat} {walk : Walk} {node other : Nat}

/-- An entry without a number is that of a node that was not entered. -/
theorem not_isNumbered (unknown : walk.numbers[node]? = some none) : ¬ walk.IsNumbered node := by
  rintro ⟨number, found⟩
  rw [unknown] at found
  cases found

/-- Completing a component cuts the stack behind its first node. -/
theorem complete_eq (waiting : node ∈ walk.stack) :
    ∃ above below, walk.stack = above ++ node :: below ∧
      walk.complete node = { walk with
        stack := below
        components := (above ++ [node]) :: walk.components } := by
  obtain ⟨above, below, split, fresh⟩ := List.eq_append_cons_of_mem waiting
  have kept : ∀ other ∈ above, decide (other ≠ node) = true := by
    intro other member
    simpa using fun same : other = node => fresh (same ▸ member)
  refine ⟨above, below, split, ?_⟩
  unfold complete
  rw [split, List.takeWhile_append_of_pos kept, List.dropWhile_append_of_pos kept,
    List.takeWhile_cons_of_neg (by simp), List.dropWhile_cons_of_neg (by simp), List.append_nil,
    List.tail_cons]

namespace Consistent

section

variable {owed : List (Nat × Nat)} (consistent : walk.Consistent next count owed)
  {above below : List Nat} (split : walk.stack = above ++ node :: below)

include consistent split

/-- Down to a node, the stack holds what has at least its number. -/
theorem mem_segment (other : Nat) :
    other ∈ above ++ [node] ↔ other ∈ walk.stack ∧ walk.rank node ≤ walk.rank other := by
  have sorted := consistent.stack_sorted
  rw [split, List.pairwise_append, List.pairwise_cons] at sorted
  obtain ⟨_, ⟨smaller, _⟩, greater⟩ := sorted
  rw [split]
  simp only [List.mem_append, List.mem_cons, List.not_mem_nil, or_false]
  constructor
  · rintro (member | rfl)
    · exact ⟨Or.inl member, Nat.le_of_lt (greater other member node List.mem_cons_self)⟩
    · exact ⟨Or.inr (Or.inl rfl), Nat.le_refl _⟩
  · rintro ⟨member | rfl | member, high⟩
    · exact Or.inl member
    · exact Or.inr rfl
    · exact absurd (smaller other member) (Nat.not_lt.mpr high)

/-- Below a node, the stack holds what has a smaller number. -/
theorem mem_below (other : Nat) :
    other ∈ below ↔ other ∈ walk.stack ∧ walk.rank other < walk.rank node := by
  have sorted := consistent.stack_sorted
  rw [split, List.pairwise_append, List.pairwise_cons] at sorted
  obtain ⟨_, ⟨smaller, _⟩, greater⟩ := sorted
  constructor
  · intro member
    exact ⟨by simp [split, member], smaller other member⟩
  · rintro ⟨waiting, low⟩
    rw [split] at waiting
    rcases List.mem_append.mp waiting with member | member
    · have high := greater other member node List.mem_cons_self
      omega
    · rcases List.mem_cons.mp member with rfl | member
      · exact absurd low (Nat.lt_irrefl _)
      · exact member

end

section

variable (consistent : walk.Consistent next count []) {frames : List (Nat × List Nat)}
  (held : walk.frames = (node, []) :: frames) (root : walk.low node = walk.rank node)

include consistent held

/-- What stands above the explored node on the stack is covered by it. -/
theorem covered_by_head (waiting : other ∈ walk.stack) (above : walk.rank node < walk.rank other) :
    walk.low other < walk.rank other ∧ Reachable next node other ∧
      walk.low node ≤ walk.low other := by
  have beside : other ∉ walk.path := by
    intro member
    exact absurd above (Nat.not_lt.mpr (consistent.rank_le_head held member))
  obtain ⟨lower, ancestor, ancestorIn, _, chain, lows, nearest⟩ :=
    consistent.covered other waiting beside
  have onPath : node ∈ walk.path := by simp [path_cons held]
  -- The explored node has the greatest number on the path, so it is the nearest one.
  have same : ancestor = node := by
    apply consistent.rank_injective (consistent.path_subset ancestorIn)
      (consistent.path_subset onPath)
    exact Nat.le_antisymm (consistent.rank_le_head held ancestorIn) (nearest node onPath above)
  subst same
  exact ⟨lower, chain, lows⟩

include root

/-- From the first node of a component on, low links do not go below its number. -/
theorem low_ge (waiting : other ∈ walk.stack) (above : walk.rank node ≤ walk.rank other) :
    walk.rank node ≤ walk.low other := by
  rcases Nat.eq_or_lt_of_le above with equal | above
  · obtain rfl := consistent.rank_injective (consistent.head_waiting held) waiting equal
    exact Nat.le_of_eq root.symm
  · rw [← root]
    exact (consistent.covered_by_head held waiting above).2.2

/-- Edges from there lead there or to components that are complete. -/
theorem segment_closed (waiting : other ∈ walk.stack) (above : walk.rank node ≤ walk.rank other)
    {successor : Nat} (edge : successor ∈ next other) :
    (successor ∈ walk.stack ∧ walk.rank node ≤ walk.rank successor) ∨ walk.IsDone successor := by
  rcases consistent.explored_below held waiting edge with
    ⟨frame, further, same, _⟩ | owing | ⟨known, effect⟩
  · -- Nothing that has a frame further down has such a great number.
    have below := consistent.rank_lt_head held (List.mem_map.mpr ⟨frame, further, same⟩)
    exact absurd below (Nat.not_lt.mpr above)
  · cases owing
  · rcases (consistent.numbered_iff successor).mp known with successorIn | done
    · have ge := consistent.low_ge held root waiting above
      exact Or.inl ⟨successorIn, Nat.le_trans ge (effect successorIn)⟩
    · exact Or.inr done

/-- Whatever is reached from there is there too, or done. -/
theorem segment_reaches (waiting : other ∈ walk.stack) (above : walk.rank node ≤ walk.rank other)
    (target : Nat) (chain : Reachable next other target) :
    (target ∈ walk.stack ∧ walk.rank node ≤ walk.rank target) ∨ walk.IsDone target := by
  -- By induction on the chain: an edge stays there or leads to what is done, which is closed.
  induction chain with
  | refl => exact Or.inl ⟨waiting, above⟩
  | tail _ edge ih =>
    rcases ih with ⟨within, high⟩ | done
    · exact consistent.segment_closed held root within high edge
    · exact Or.inr (consistent.done_closed _ done _ edge)

/-- Everything from the explored node on reaches that node: following low links, it reaches smaller
numbers until the number of that node is the smallest. -/
theorem reaches_head (waiting : other ∈ walk.stack) (above : walk.rank node ≤ walk.rank other) :
    Reachable next other node := by
  -- By strong induction on the number: a low link leads to a smaller one.
  induction size : walk.rank other using Nat.strongRecOn generalizing other with
  | _ rank ih =>
    rcases Nat.eq_or_lt_of_le above with equal | strict
    · rw [consistent.rank_injective (consistent.head_waiting held) waiting equal]
      exact .refl
    · have lower := (consistent.covered_by_head held waiting strict).1
      have ge := consistent.low_ge held root waiting above
      obtain ⟨target, targetIn, equal, chain⟩ := consistent.low_reached other waiting
      exact chain.trans (ih (walk.rank target) (by omega) targetIn (by omega) rfl)

/-- Down to the first node, the stack holds exactly what is tied to any of its nodes. -/
theorem tied_iff (waiting : other ∈ walk.stack) (above : walk.rank node ≤ walk.rank other)
    (target : Nat) : (target ∈ walk.stack ∧ walk.rank node ≤ walk.rank target) ↔
      Reachable next other target ∧ Reachable next target other := by
  have fromHead {member : Nat} (within : member ∈ walk.stack)
      (high : walk.rank node ≤ walk.rank member) : Reachable next node member := by
    rcases Nat.eq_or_lt_of_le high with equal | strict
    · rw [consistent.rank_injective (consistent.head_waiting held) within equal]
      exact .refl
    · exact (consistent.covered_by_head held within strict).2.1
  constructor
  · rintro ⟨targetIn, high⟩
    exact ⟨(consistent.reaches_head held root waiting above).trans (fromHead targetIn high),
      (consistent.reaches_head held root targetIn high).trans (fromHead waiting above)⟩
  · rintro ⟨forth, back⟩
    rcases consistent.segment_reaches held root waiting above target forth with within | done
    · exact within
    · -- From a complete component nothing leads back to the stack.
      exact absurd (consistent.done_reaches done back) (consistent.stack_not_done other waiting)

/-- A node that is left with its own number as its low link completes a component. -/
theorem complete :
    { walk.complete node with frames }.Consistent next count [] := by
  -- The stack splits at the node: above it the component, below it what keeps waiting.
  obtain ⟨above, below, split, result⟩ := complete_eq (consistent.head_waiting held)
  rw [result]
  have sorted := consistent.stack_sorted
  rw [split, List.pairwise_append, List.pairwise_cons] at sorted
  have belowSorted := sorted.2.1.2
  have inSegment := consistent.mem_segment split
  have inBelow := consistent.mem_below split
  have nowDone (other : Nat) : { walk with
      frames := frames
      stack := below
      components := (above ++ [node]) :: walk.components }.IsDone other ↔
      other ∈ above ++ [node] ∨ walk.IsDone other := by
    simp [IsDone]
  have wholePath := path_cons held
  have pathSorted := consistent.path_sorted
  have pathReaches := consistent.path_reaches
  have pathSubset := consistent.path_subset
  rw [wholePath] at pathSorted pathReaches pathSubset
  refine { consistent with
    numbered_iff := ?_
    stack_sorted := belowSorted
    stack_not_done := ?_
    path_sorted := (List.pairwise_cons.mp pathSorted).2
    path_subset := ?_
    path_reaches := (List.pairwise_cons.mp pathReaches).2
    frames_subset := ?_
    low_le := fun other member => consistent.low_le other ((inBelow other).mp member).1
    low_reached := ?_
    explored := ?_
    covered := ?_
    done_closed := ?_
    components_spec := ?_
    components_disjoint := ?_ }
  · intro other
    -- Numbered nodes are above the cut and now done, or below it, or were done before.
    change walk.IsNumbered other ↔ _
    rw [consistent.numbered_iff, nowDone, inSegment, inBelow]
    by_cases high : walk.rank node ≤ walk.rank other
    · simp [high, Nat.not_lt.mpr high]
    · simp [high, Nat.lt_of_not_le high]
  · intro other member done
    rcases (nowDone other).mp done with inside | before
    -- What is done now is above the cut, and what waits is below it.
    · have high := ((inSegment other).mp inside).2
      exact absurd ((inBelow other).mp member).2 (Nat.not_lt.mpr high)
    · exact consistent.stack_not_done other ((inBelow other).mp member).1 before
  · intro other member
    exact (inBelow other).mpr ⟨pathSubset (List.mem_cons_of_mem _ member),
      consistent.rank_lt_head held member⟩
  · intro frame member
    exact consistent.frames_subset frame (by simp [held, member])
  · intro other member
    obtain ⟨waiting, low⟩ := (inBelow other).mp member
    obtain ⟨target, targetIn, equal, chain⟩ := consistent.low_reached other waiting
    -- Low links go down the stack, so they stay below the cut.
    have := consistent.low_le other waiting
    exact ⟨target, (inBelow target).mpr ⟨targetIn, by omega⟩, equal, chain⟩
  · intro other member successor edge
    rcases consistent.explored_below held ((inBelow other).mp member).1 edge with
      left | owing | ⟨known, effect⟩
    · exact Or.inl left
    · cases owing
    · exact Or.inr (Or.inr ⟨known, fun still => effect ((inBelow successor).mp still).1⟩)
  · intro other member beside
    obtain ⟨waiting, low⟩ := (inBelow other).mp member
    have outside : other ∉ walk.path := by
      rw [wholePath]
      intro inside
      rcases List.mem_cons.mp inside with rfl | further
      · exact Nat.lt_irrefl _ low
      · exact beside further
    obtain ⟨lower, ancestor, ancestorIn, under, chain, lows, nearest⟩ :=
      consistent.covered other waiting outside
    rw [wholePath] at ancestorIn nearest
    have further : ancestor ∈ frames.map (·.1) := by
      rcases List.mem_cons.mp ancestorIn with rfl | further
      · exact absurd under (Nat.not_lt.mpr (Nat.le_of_lt low))
      · exact further
    exact ⟨lower, ancestor, further, under, chain, lows,
      fun higher inside smaller => nearest higher (List.mem_cons_of_mem _ inside) smaller⟩
  · intro other done successor edge
    rw [nowDone] at done ⊢
    -- Edges out of the new component stay in it or lead to older ones.
    rcases done with inside | before
    · obtain ⟨waiting, high⟩ := (inSegment other).mp inside
      rcases consistent.segment_closed held root waiting high edge with within | before
      · exact Or.inl ((inSegment successor).mpr within)
      · exact Or.inr before
    · exact Or.inr (consistent.done_closed other before successor edge)
  · intro component member
    rcases List.mem_cons.mp member with rfl | before
    · refine ⟨by simp, ?_, ?_⟩
      -- Numbers differ along the stack, so no node is on it twice.
      · have distinct : walk.stack.Nodup := consistent.stack_sorted.imp (by
          rintro later earlier strict rfl
          exact Nat.lt_irrefl _ strict)
        rw [split, List.append_cons] at distinct
        exact (List.nodup_append.mp distinct).1
      · intro other inside target
        obtain ⟨waiting, high⟩ := (inSegment other).mp inside
        rw [inSegment]
        exact consistent.tied_iff held root waiting high target
    · exact consistent.components_spec component before
  · refine List.pairwise_cons.mpr ⟨?_, consistent.components_disjoint⟩
    intro component before other inside again
    exact consistent.stack_not_done other ((inSegment other).mp inside).1 ⟨component, before, again⟩

end

variable (consistent : walk.Consistent next count [])

include consistent

/-- The walk finds the number of a node equal to its low link exactly if the two are equal. -/
theorem isRoot_iff (waiting : node ∈ walk.stack) :
    walk.numbers[node]? = some (some (walk.low node)) ↔ walk.low node = walk.rank node := by
  obtain ⟨number, known⟩ := consistent.isNumbered waiting
  rw [rank_eq known, known]
  simp only [Option.some.injEq]
  exact eq_comm

/-- Where the walk began, no smaller number is on the stack. -/
theorem low_eq_rank (held : walk.frames = [(node, [])]) : walk.low node = walk.rank node := by
  have waiting := consistent.head_waiting held
  have wholePath := path_cons held
  obtain ⟨target, targetIn, equal, _⟩ := consistent.low_reached node waiting
  -- A smaller number would stand beside the path and be covered by a smaller number on it.
  by_contra apart
  have smaller : walk.rank target < walk.rank node := by
    rw [equal]
    exact Nat.lt_of_le_of_ne (consistent.low_le node waiting) apart
  have beside : target ∉ walk.path := by
    rw [wholePath, List.map_nil, List.mem_singleton]
    rintro rfl
    exact Nat.lt_irrefl _ smaller
  obtain ⟨_, ancestor, member, below, _⟩ := consistent.covered target targetIn beside
  rw [wholePath, List.map_nil, List.mem_singleton] at member
  subst member
  exact Nat.lt_asymm smaller below

/-- Leaving a node keeps the invariant: it completes a component or hands its low link on. -/
theorem leave {frames : List (Nat × List Nat)} (held : walk.frames = (node, []) :: frames) :
    ({ walk with frames }.leave node).Consistent next count [] := by
  have waiting := consistent.head_waiting held
  cases frames with
  | nil =>
    have root := consistent.low_eq_rank held
    have left : { walk with frames := [] }.leave node = { walk.complete node with frames := [] } :=
      if_pos ((consistent.isRoot_iff waiting).mpr root)
    rw [left]
    exact consistent.complete held root
  | cons frame frames =>
    obtain ⟨parent, rest⟩ := frame
    have onPath : parent ∈ walk.path := by simp [path_cons held]
    have parentBelow := consistent.rank_lt_head held List.mem_cons_self
    have parentReaches := consistent.reachable_head held onPath
    have inLows : parent < walk.lows.size := by
      rw [consistent.lows_size]
      exact consistent.lt_count (consistent.isNumbered (consistent.path_subset onPath))
    have apart : node ≠ parent := by
      rintro rfl
      exact Nat.lt_irrefl _ parentBelow
    -- The parent is lowered while the node is still on the path, and only then is the node left.
    obtain ⟨target, targetIn, equal, chain⟩ := consistent.low_reached node waiting
    have lowered := consistent.lower onPath target targetIn (parentReaches.trans chain)
    rw [equal] at lowered
    have ownLow : (walk.lower parent (walk.low node)).low node = walk.low node := by
      rw [low_lower inLows, if_neg apart]
    have handed : (walk.lower parent (walk.low node)).low parent ≤ walk.low node := by
      rw [low_lower inLows, if_pos rfl]
      exact Nat.min_le_right _ _
    by_cases root : walk.low node = walk.rank node
    · have left : { walk with frames := (parent, rest) :: frames }.leave node =
          { (walk.lower parent (walk.low node)).complete node with
            frames := (parent, rest) :: frames } :=
        if_pos ((consistent.isRoot_iff waiting).mpr root)
      rw [left]
      exact lowered.complete held (ownLow.trans root)
    · have left : { walk with frames := (parent, rest) :: frames }.leave node =
          { walk.lower parent (walk.low node) with frames := (parent, rest) :: frames } :=
        if_neg (mt (consistent.isRoot_iff waiting).mp root)
      rw [left]
      have strict := Nat.lt_of_le_of_ne (consistent.low_le node waiting) root
      exact lowered.pop held (by rwa [ownLow]) (by rwa [ownLow])

variable (bounded : ∀ node < count, ∀ successor ∈ next node, successor < count)

include bounded

/-- Following an edge keeps the invariant. -/
theorem follow {successor : Nat} {rest : List Nat} {frames : List (Nat × List Nat)}
    (held : walk.frames = (node, successor :: rest) :: frames) :
    ({ walk with frames := (node, rest) :: frames }.follow next node successor).Consistent
      next count [] := by
  have waiting := consistent.head_waiting held
  have known := consistent.isNumbered waiting
  have edge : successor ∈ next node :=
    consistent.frames_subset (node, successor :: rest) (by simp [held]) List.mem_cons_self
  have inside := bounded node (consistent.lt_count known) successor edge
  -- The edge is taken from its frame first, and then has its effect.
  have looked := consistent.owe held
  unfold Walk.follow
  split
  next unknown =>
    have fresh : ¬ walk.IsNumbered successor := not_isNumbered unknown
    have reached : ∀ higher ∈ walk.path, Reachable next higher successor :=
      fun higher member => (consistent.reachable_head held member).tail edge
    have samePath : { walk with frames := (node, rest) :: frames }.path = walk.path :=
      (path_cons held).symm
    -- The new number is greater than all others, so the edge needs no lower low link.
    refine (looked.enter inside fresh (samePath ▸ reached)).settle ?_ ?_
    · exact (isNumbered_enter (looked.numbers_size ▸ inside)).mpr (Or.inl rfl)
    · intro _
      have apart : node ≠ successor := by
        rintro rfl
        exact fresh known
      rw [rank_enter (looked.numbers_size ▸ inside), if_pos rfl,
        low_enter (looked.lows_size ▸ inside), if_neg apart]
      exact Nat.le_trans (consistent.low_le node waiting)
        (Nat.le_of_lt (consistent.rank_lt node known))
  next number found =>
    have successorKnown : walk.IsNumbered successor := ⟨number, found⟩
    have numbered : walk.rank successor = number := rank_eq found
    split
    next successorIn =>
      rw [← numbered]
      have lookedOnPath : node ∈ { walk with frames := (node, rest) :: frames }.path :=
        List.mem_cons_self
      refine (looked.lower lookedOnPath successor successorIn (.single edge)).settle
        successorKnown ?_
      intro _
      rw [low_lower (looked.lows_size ▸ consistent.lt_count known), if_pos rfl]
      exact Nat.min_le_right _ _
    -- Off the stack the end of the edge belongs to a component that is complete.
    next beside => exact looked.settle successorKnown fun successorIn => absurd successorIn beside
  next missing =>
    have outside := Array.getElem?_eq_none_iff.mp missing
    rw [looked.numbers_size] at outside
    exact absurd inside (Nat.not_lt.mpr outside)

/-- Each step of the walk keeps the invariant. -/
theorem step : (walk.step next).Consistent next count [] := by
  unfold Walk.step
  split
  next => exact consistent
  next held => exact consistent.leave held
  next held => exact consistent.follow bounded held

/-- A run keeps the invariant and ends without frames. -/
theorem run : (run next walk).Consistent next count [] ∧ (Walk.run next walk).frames = [] := by
  fun_induction Walk.run next walk with
  | case1 walk idle => exact ⟨consistent, idle⟩
  | case2 walk busy ih => exact ih (consistent.step bounded)

omit bounded in
/-- Between two visits nothing waits. -/
theorem stack_eq_nil (idle : walk.frames = []) : walk.stack = [] := by
  apply List.eq_nil_iff_forall_not_mem.mpr
  intro node waiting
  obtain ⟨_, ancestor, member, _⟩ := consistent.covered node waiting (by simp [path, idle])
  simp [path, idle] at member

/-- So does a visit, of a new node or of one that is numbered already. -/
theorem visit (inside : node < count) (idle : walk.frames = []) :
    (walk.visit next node).Consistent next count [] ∧ (walk.visit next node).frames = [] := by
  unfold Walk.visit
  split
  next unknown =>
    refine (consistent.enter inside (not_isNumbered unknown) ?_).run bounded
    simp [path, idle]
  next => exact ⟨consistent, idle⟩

end Consistent

/-- Leaving a node changes no numbers. -/
theorem numbers_leave : (walk.leave node).numbers = walk.numbers := by
  unfold leave
  simp only
  split <;> split <;> rfl

namespace IsNumbered

variable (known : walk.IsNumbered other)

include known

/-- Numbered nodes stay numbered when another is entered. -/
theorem enter : (walk.enter next node).IsNumbered other := by
  obtain ⟨number, found⟩ := known
  have inside := (Array.getElem?_eq_some_iff.mp found).1
  by_cases same : node = other
  · subst same
    exact ⟨walk.opened, by simp [Walk.enter, inside]⟩
  · exact ⟨number, by simpa [Walk.enter, Array.getElem?_setIfInBounds_ne same] using found⟩

theorem step : (walk.step next).IsNumbered other := by
  unfold Walk.step
  split
  next => exact known
  next =>
    unfold IsNumbered
    rwa [numbers_leave]
  next =>
    unfold Walk.follow
    split
    next => exact enter known
    next => split <;> exact known
    next => exact known

theorem run : (Walk.run next walk).IsNumbered other := by
  fun_induction Walk.run next walk with
  | case1 walk idle => exact known
  | case2 walk busy ih => exact ih known.step

theorem visit : (walk.visit next node).IsNumbered other := by
  unfold Walk.visit
  split
  next => exact known.enter.run
  next => exact known

end IsNumbered

/-- A visited node is numbered. -/
theorem isNumbered_visit (inside : node < walk.numbers.size) :
    (walk.visit next node).IsNumbered node := by
  unfold visit
  split
  next => exact ((isNumbered_enter inside).mpr (Or.inl rfl)).run
  next numbered =>
    match found : walk.numbers[node]? with
    | none => exact absurd inside (Nat.not_lt.mpr (Array.getElem?_eq_none_iff.mp found))
    | some none => exact absurd found numbered
    | some (some number) => exact ⟨number, found⟩

/-- Visits in turn keep the invariant and number all nodes visited. -/
theorem consistent_visits (bounded : ∀ node < count, ∀ successor ∈ next node, successor < count)
    (nodes : List Nat) (inside : ∀ node ∈ nodes, node < count)
    (consistent : walk.Consistent next count []) (idle : walk.frames = []) :
    (nodes.foldl (visit next) walk).Consistent next count [] ∧
      (nodes.foldl (visit next) walk).frames = [] ∧
      ∀ node, node ∈ nodes ∨ walk.IsNumbered node →
        (nodes.foldl (visit next) walk).IsNumbered node := by
  -- By induction on the nodes; between two visits the walk has no frames.
  induction nodes generalizing walk with
  | nil => exact ⟨consistent, idle, fun node known => known.resolve_left List.not_mem_nil⟩
  | cons first rest ih =>
    have firstInside := inside first List.mem_cons_self
    have visited := consistent.visit bounded firstInside idle
    obtain ⟨after, done, all⟩ :=
      ih (fun node member => inside node (List.mem_cons_of_mem _ member)) visited.1 visited.2
    refine ⟨after, done, ?_⟩
    rintro node (member | known)
    · rcases List.mem_cons.mp member with rfl | later
      · exact all node (Or.inr (isNumbered_visit (consistent.numbers_size ▸ firstInside)))
      · exact all node (Or.inl later)
    · exact all node (Or.inr known.visit)

end Walk

/-- The search splits the nodes it is given, and what they reach, into components: every one is a
component of the graph, no two of them share a node, and every given node is in one. -/
theorem components_spec (next : Nat → List Nat) (count : Nat) (nodes : List Nat)
    (bounded : ∀ node < count, ∀ successor ∈ next node, successor < count)
    (inside : ∀ node ∈ nodes, node < count) :
    (∀ component ∈ components next count nodes, IsComponent next component) ∧
      (components next count nodes).Pairwise List.Disjoint ∧
      ∀ node ∈ nodes, ∃ component ∈ components next count nodes, node ∈ component := by
  obtain ⟨consistent, idle, numbered⟩ :=
    Walk.consistent_visits bounded nodes inside (Walk.consistent_start next count) rfl
  refine ⟨consistent.components_spec, consistent.components_disjoint, ?_⟩
  intro node member
  rcases (consistent.numbered_iff node).mp (numbered node (Or.inl member)) with waiting | done
  · rw [consistent.stack_eq_nil idle] at waiting
    cases waiting
  · exact done

end Rulebook.Search
