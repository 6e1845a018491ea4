import Rulebook.Order.Basic

/-!
# The ordering engine

The engine orders each version of a rule set once. A version is known by its checksum; while it is
cached, the snapshot made for it first is handed out again. Failures are not cached.
-/
namespace Rulebook

/-- An order made by an engine. No two snapshots of one engine have the same serial number. -/
structure Snapshot where
  serial : Nat
  order : RuleOrder

structure OrderingEngine where
  cached : List Snapshot := []
  made : Nat := 0

namespace OrderingEngine

/-- The snapshot cached for a version. -/
def find? (engine : OrderingEngine) (checksum : Checksum) : Option Snapshot :=
  engine.cached.find? (·.order.checksum = checksum)

/-- The order of a rule set, and the engine after the call. -/
def order (engine : OrderingEngine) (set : RuleSet) :
    Except CycleError Snapshot × OrderingEngine :=
  match engine.find? set.checksum with
  | some snapshot => (.ok snapshot, engine)
  | none =>
    match RuleOrder.ofRuleSet set with
    | .error error => (.error error, engine)
    | .ok order =>
      let snapshot : Snapshot := ⟨engine.made, order⟩
      (.ok snapshot, ⟨snapshot :: engine.cached, engine.made + 1⟩)

/-- Forgets every cached order; snapshots that were handed out stay as they are. -/
def clear (engine : OrderingEngine) : OrderingEngine :=
  { engine with cached := [] }

/-- The number of cached versions. -/
def size (engine : OrderingEngine) : Nat :=
  engine.cached.length

end OrderingEngine

end Rulebook
