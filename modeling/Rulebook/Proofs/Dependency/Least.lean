import Mathlib.Data.List.Permutation
import Rulebook.Proofs.Dependency.Topology

/-!
# The order is the least one

Many sequences keep every producer before its consumers. The schedule always takes the earliest
position that is ready, so wherever another sequence first departs from it, that one takes a later
position: the order is the lexicographically least of all.
-/
namespace Rulebook

namespace Dependency

section

variable {needs : Nat → List Nat} {waiting : List Nat}

/-- The first ready position of ascending ones is the least ready one. -/
theorem find?_isReady_le (ascending : waiting.Pairwise (· < ·)) {next other : Nat}
    (found : waiting.find? (isReady needs waiting) = some next) (waits : other ∈ waiting)
    (ready : isReady needs waiting other = true) : next ≤ other := by
  obtain ⟨_, before, after, rfl, skipped⟩ := List.find?_eq_some_iff_append.mp found
  have later := (List.pairwise_append.mp ascending).2.1
  -- What stands before the first ready position is not ready, what stands behind it is larger.
  rcases List.mem_append.mp waits with early | late
  · exact absurd ready (by simpa using skipped other early)
  · rcases List.mem_cons.mp late with rfl | behind
    · exact Nat.le_refl _
    · exact Nat.le_of_lt ((List.pairwise_cons.mp later).1 other behind)

end

/-- Whatever a position needs and that waits too stands before it. -/
def Respects (needs : Nat → List Nat) (waiting sequence : List Nat) : Prop :=
  ∀ before position after, sequence = before ++ position :: after →
    ∀ need ∈ needs position, need ∈ waiting → need ∈ before

/-- No sequence of the waiting positions that respects the needs comes before the greedy one. -/
theorem greedy_least (needs : Nat → List Nat) (waiting other : List Nat)
    (ascending : waiting.Pairwise (· < ·)) (permuted : other.Perm waiting)
    (respects : Respects needs waiting other) :
    (greedy needs waiting).1 = other ∨ List.Lex (· < ·) (greedy needs waiting).1 other := by
  fun_induction greedy needs waiting generalizing other with
  | case1 waiting found =>
    cases other with
    | nil => exact Or.inl rfl
    | cons first rest => exact Or.inr .nil
  | case2 waiting next found taken left equal ih =>
    rw [equal] at ih
    have nextWaits := List.mem_of_find?_eq_some found
    -- The other sequence starts with a later position, or it starts alike and its rest is one of
    -- the same kind.
    cases other with
    | nil => exact absurd (permuted.mem_iff.mpr nextWaits) List.not_mem_nil
    | cons first rest =>
      -- Nothing stands before the first position, so it needs nothing that waits.
      have firstReady : isReady needs waiting first = true := by
        simp only [isReady, List.all_eq_true, decide_eq_true_eq]
        exact fun need needed waits =>
          absurd (respects [] first rest rfl need needed waits) List.not_mem_nil
      have firstWaits := permuted.mem_iff.mp List.mem_cons_self
      rcases Nat.lt_or_eq_of_le (find?_isReady_le ascending found firstWaits firstReady) with
        earlier | same
      · exact Or.inr (.rel earlier)
      · subst same
        have distinct : waiting.Nodup := ascending.imp Nat.ne_of_lt
        have restRespects : Respects needs (waiting.erase next) rest := by
          intro before position after split need needed waits
          obtain ⟨apart, stillWaits⟩ := distinct.mem_erase_iff.mp waits
          have stands := respects (next :: before) position after (by rw [split]; rfl) need needed
            stillWaits
          exact (List.mem_cons.mp stands).resolve_left apart
        rcases ih rest (ascending.sublist List.erase_sublist)
          (List.cons_perm_iff_perm_erase.mp permuted).2 restRespects with same | earlier
        · exact Or.inl (congrArg (next :: ·) same)
        · exact Or.inr (.cons earlier)

end Dependency

/-- The positions of all rules, each once, with every producer before its consumers. -/
structure IsOrdering (rules : List Rule) (contexts : ContextTable) (sequence : List Nat) :
    Prop where
  perm : sequence.Perm (List.range rules.length)
  respects : ∀ consumer producer, ReadsAt rules contexts consumer producer →
    ∀ i j : Nat, sequence[i]? = some producer → sequence[j]? = some consumer → i < j

namespace IsOrdering

variable {rules : List Rule} {contexts : ContextTable}

/-- An ordering of the rules respects what the graph says they need. -/
theorem respects_producersOf {sequence : List Nat} (ordering : IsOrdering rules contexts sequence) :
    Dependency.Respects (RuleGraph.ofRules rules contexts).producersOf
      (RuleGraph.ofRules rules contexts).positions sequence := by
  rintro before consumer after rfl producer needed waits
  have reads := (RuleGraph.mem_producersOf rules contexts consumer producer).mp needed
  obtain ⟨index, found⟩ := List.mem_iff_getElem?.mp (ordering.perm.mem_iff.mpr waits)
  have earlier := ordering.respects consumer producer reads index before.length found (by simp)
  rw [List.getElem?_append_left earlier] at found
  exact List.mem_of_getElem? found

end IsOrdering

namespace RuleGraph

variable (rules : List Rule) (contexts : ContextTable)

/-- What is returned is an ordering. -/
theorem isOrdering_of_orderedPositions (ordered : List Nat)
    (scheduled : (ofRules rules contexts).orderedPositions = .ok ordered) :
    IsOrdering rules contexts ordered := by
  refine ⟨orderedPositions_perm rules contexts ordered scheduled, ?_⟩
  obtain ⟨_, rfl⟩ := (orderedPositions_ok_iff _ _).mp scheduled
  intro consumer producer reads i j produces consumes
  have below := (taken_respects rules contexts consumer producer (List.mem_of_getElem? consumes)
    reads).2
  obtain ⟨_, rfl⟩ := List.getElem?_eq_some_iff.mp produces
  obtain ⟨_, rfl⟩ := List.getElem?_eq_some_iff.mp consumes
  have distinct := taken_nodup rules contexts
  rwa [distinct.idxOf_getElem, distinct.idxOf_getElem] at below

/-- What is returned comes before every other ordering, position by position. -/
theorem orderedPositions_least (ordered other : List Nat)
    (scheduled : (ofRules rules contexts).orderedPositions = .ok ordered)
    (ordering : IsOrdering rules contexts other) :
    ordered = other ∨ List.Lex (· < ·) ordered other := by
  obtain ⟨_, rfl⟩ := (orderedPositions_ok_iff _ _).mp scheduled
  rw [taken_eq]
  exact Dependency.greedy_least _ _ other List.pairwise_lt_range ordering.perm
    ordering.respects_producersOf

/-- Without a cycle of reading, the rules are returned in the lexicographically least sequence of
positions that keeps every producer before its consumers. -/
theorem order_lex_least
    (acyclic : ∀ position, ¬ Relation.TransGen (ReadsAt rules contexts) position position) :
    ∃ ordered, (ofRules rules contexts).order = .ok ((ofRules rules contexts).rulesAt ordered) ∧
      IsOrdering rules contexts ordered ∧
      ∀ other, IsOrdering rules contexts other →
        ordered = other ∨ List.Lex (· < ·) ordered other := by
  obtain ⟨ordered, scheduled⟩ := (exists_orderedPositions_iff rules contexts).mpr acyclic
  exact ⟨ordered, (order_ok_iff _ _).mpr ⟨ordered, scheduled, rfl⟩,
    isOrdering_of_orderedPositions rules contexts ordered scheduled,
    fun other => orderedPositions_least rules contexts ordered other scheduled⟩

/-- A total of two charges, one of which depends on the other, and a note. -/
def charges : List Rule :=
  [RuleSet.readingRule "total" ⟨"Policy", "total"⟩ [⟨"Policy", "fee"⟩, ⟨"Policy", "tax"⟩],
    RuleSet.readingRule "fee" ⟨"Policy", "fee"⟩ [],
    RuleSet.readingRule "tax" ⟨"Policy", "tax"⟩ [⟨"Policy", "fee"⟩],
    RuleSet.readingRule "note" ⟨"Policy", "note"⟩ []]

/-- The note could come first, but the earlier rules do not wait for it. -/
theorem order_lex_least_of_charges :
    (∀ position, ¬ Relation.TransGen (ReadsAt charges []) position position) ∧
      ((ofRules charges []).order.map (·.map (·.name))) = .ok ["fee", "tax", "total", "note"] ∧
      ∃ ordered, (ofRules charges []).order = .ok ((ofRules charges []).rulesAt ordered) ∧
        IsOrdering charges [] ordered ∧
        ∀ other, IsOrdering charges [] other →
          ordered = other ∨ List.Lex (· < ·) ordered other := by
  have acyclic := (exists_orderedPositions_iff charges []).mp ⟨[1, 2, 0, 3], by cbv⟩
  exact ⟨acyclic, by cbv, order_lex_least charges [] acyclic⟩

end RuleGraph

end Rulebook
