import Rulebook.Context.Ancestry
import Rulebook.Dependency.Schedule
import Rulebook.Rule.Basic

/-!
# The dependency graph

One rule reads another if it declares to read a path that the other one targets, on a context that
shares a name with the other's context once both are extended by their ancestries. A rule does not
read itself. Rules are known by their positions in the list they were given in.

What is written is indexed by name and path first. Every match links a producer to its consumer, in
the lists of both, unless the pair was seen before.
-/
namespace Rulebook

/-- An attribute with every name that its context answers to. -/
structure Footprint where
  names : List String
  path : String

def Footprint.ofAttribute (contexts : ContextTable) (target : Attribute) : Footprint :=
  ⟨contexts.ancestry target.context, target.path⟩

/-- The positions, ascending, at which a path is written under a name. -/
abbrev WriterIndex := List ((String × String) × List Nat)

namespace WriterIndex

/-- The positions that are listed under a name and path. -/
def find (key : String × String) : WriterIndex → List Nat
  | [] => []
  | (other, positions) :: rest => if other = key then positions else find key rest

/-- Lists a position last under a name and path. -/
def add (key : String × String) (position : Nat) : WriterIndex → WriterIndex
  | [] => [(key, [position])]
  | (other, positions) :: rest =>
    -- Positions come in ascending order, so the last one is the largest.
    if other = key then (other, positions ++ [position]) :: rest
    else (other, positions) :: add key position rest

/-- The index of what is written at each position. -/
def ofWritten (written : List Footprint) : WriterIndex :=
  written.zipIdx.foldl (fun index (footprint, position) =>
    footprint.names.foldl (fun index name => index.add (name, footprint.path) position) index) []

end WriterIndex

/-- The links found so far: the positions that each position reads and those that read it, and the
pairs of a producer and its consumer that were seen. -/
structure Links where
  producers : Array (List Nat)
  consumers : Array (List Nat)
  seen : List (Nat × Nat)

namespace Links

def start (count : Nat) : Links :=
  ⟨Array.replicate count [], Array.replicate count [], []⟩

/-- Links two positions, however many names and declarations connect them. -/
def add (links : Links) (producer consumer : Nat) : Links :=
  if producer ≠ consumer ∧ (producer, consumer) ∉ links.seen then
    { producers := links.producers.modify consumer (· ++ [producer])
      consumers := links.consumers.modify producer (· ++ [consumer])
      seen := (producer, consumer) :: links.seen }
  else links

/-- Links a consumer to every position that writes something it reads. -/
def addReads (index : WriterIndex) (links : Links) (consumer : Nat) (read : List Footprint) :
    Links :=
  read.foldl (fun links footprint =>
    footprint.names.foldl (fun links name =>
      (index.find (name, footprint.path)).foldl (·.add · consumer) links) links) links

/-- The links between what is written and what is read at each position. -/
def between (written : List Footprint) (read : List (List Footprint)) : Links :=
  let index := WriterIndex.ofWritten written
  read.zipIdx.foldl (fun links (read, consumer) => links.addReads index consumer read)
    (start written.length)

end Links

/-- The rules, with the positions, ascending, of the rules that each of them reads, and of those
that read it. -/
structure RuleGraph where
  rules : List Rule
  producers : Array (List Nat)
  consumers : Array (List Nat)
  edgeCount : Nat

namespace RuleGraph

/-- The graph of rules over the inheritance of contexts. -/
def ofRules (rules : List Rule) (contexts : ContextTable) : RuleGraph :=
  -- What a rule writes or reads is found under every name its context answers to.
  let written := rules.map fun rule => Footprint.ofAttribute contexts rule.target
  let read := rules.map fun rule => rule.reads.map (Footprint.ofAttribute contexts)
  -- Producers and consumers are linked as they are met and sorted afterwards.
  let links := Links.between written read
  { rules
    producers := links.producers.map (·.mergeSort)
    consumers := links.consumers.map (·.mergeSort)
    edgeCount := links.seen.length }

@[simp]
theorem rules_ofRules (rules : List Rule) (contexts : ContextTable) :
    (ofRules rules contexts).rules = rules := rfl

/-- The positions of all rules. -/
def positions (graph : RuleGraph) : List Nat :=
  List.range graph.rules.length

@[simp]
theorem mem_positions (graph : RuleGraph) (position : Nat) :
    position ∈ graph.positions ↔ position < graph.rules.length :=
  List.mem_range

@[simp]
theorem length_positions (graph : RuleGraph) : graph.positions.length = graph.rules.length :=
  List.length_range

/-- The positions of the rules that the rule at a position reads. -/
def producersOf (graph : RuleGraph) (position : Nat) : List Nat :=
  graph.producers.getD position []

/-- The positions of the rules that read the rule at a position. -/
def consumersOf (graph : RuleGraph) (position : Nat) : List Nat :=
  graph.consumers.getD position []

/-- The rules at positions. -/
def rulesAt (graph : RuleGraph) (positions : List Nat) : List Rule :=
  positions.filterMap (graph.rules[·]?)

/-- The position of the first rule of a name. -/
def position? (graph : RuleGraph) (name : String) : Option Nat :=
  graph.rules.findIdx? (·.name = name)

/-- The names of the rules that must run before the named one, in their given order. -/
def producerNames? (graph : RuleGraph) (name : String) : Option (List String) :=
  (graph.position? name).map fun position =>
    (graph.rulesAt (graph.producersOf position)).map (·.name)

/-- The names of the rules that must run after the named one, in their given order. -/
def consumerNames? (graph : RuleGraph) (name : String) : Option (List String) :=
  (graph.position? name).map fun position =>
    (graph.rulesAt (graph.consumersOf position)).map (·.name)

end RuleGraph

end Rulebook
