import Mathlib.Data.List.Nodup
import Rulebook.Dependency.Graph

/-!
# Links

The index of writers lists a position under a key exactly if it writes that path under that name.
Linking keeps three records at once: what a position reads, what reads it, and the pairs that were
seen. One invariant says that they tell the same, each pair once; an addition preserves it, so it
holds of the links between any lists of attributes.
-/
namespace Rulebook

namespace WriterIndex

/-- An addition under a key is found under that key and changes nothing under others. -/
theorem mem_find_add (key other : String × String) (added position : Nat) (index : WriterIndex) :
    position ∈ (index.add key added).find other ↔
      position ∈ index.find other ∨ key = other ∧ position = added := by
  induction index with
  | nil => by_cases same : key = other <;> simp [add, find, same]
  | cons entry rest ih =>
    obtain ⟨first, positions⟩ := entry
    by_cases kept : first = key
    · -- The key has its entry here.
      subst kept
      by_cases asked : first = other <;> simp [add, find, asked]
    · -- The addition went further down, and the entry here stays as it is.
      by_cases asked : first = other
      · subst asked
        simp [add, find, kept, Ne.symm kept]
      · simp [add, find, kept, asked, ih]

/-- Additions in turn are found, in any order, beside what was there before. -/
theorem mem_find_foldl_add (entries : List ((String × String) × Nat)) (index : WriterIndex)
    (key : String × String) (position : Nat) :
    position ∈ (entries.foldl (fun index entry => index.add entry.1 entry.2) index).find key ↔
      position ∈ index.find key ∨ (key, position) ∈ entries := by
  induction entries generalizing index with
  | nil => simp
  | cons entry rest ih =>
    have first : (key, position) = entry ↔ entry.1 = key ∧ position = entry.2 := by
      rw [Prod.ext_iff, eq_comm]
    rw [List.foldl_cons, ih, mem_find_add, List.mem_cons, first, or_assoc]

/-- A position is found under a name and a path exactly if that is what it writes. -/
theorem mem_find_ofWritten (written : List Footprint) (name path : String) (position : Nat) :
    position ∈ (ofWritten written).find (name, path) ↔
      ∃ footprint, written[position]? = some footprint ∧ footprint.path = path ∧
        name ∈ footprint.names := by
  -- The two nested loops are one loop over pairs of a key and a position.
  have flat : ofWritten written =
      (written.zipIdx.flatMap fun entry =>
        entry.1.names.map fun name => ((name, entry.1.path), entry.2)).foldl
          (fun (index : WriterIndex) entry => index.add entry.1 entry.2) [] := by
    simp only [ofWritten, List.foldl_flatMap, List.foldl_map]
  rw [flat, mem_find_foldl_add]
  simp only [find, List.not_mem_nil, false_or, List.mem_flatMap, Prod.exists,
    List.mem_zipIdx_iff_getElem?, List.mem_map, Prod.mk.injEq]
  constructor
  · rintro ⟨footprint, _, found, _, named, ⟨rfl, rfl⟩, rfl⟩
    exact ⟨footprint, found, rfl, named⟩
  · rintro ⟨footprint, found, rfl, named⟩
    exact ⟨footprint, position, found, name, named, ⟨rfl, rfl⟩, rfl⟩

end WriterIndex

namespace Links

/-- Adds pairs of a producer and its consumer one after another. -/
def addAll (links : Links) (pairs : List (Nat × Nat)) : Links :=
  pairs.foldl (fun links pair => links.add pair.1 pair.2) links

/-- The lists of producers and of consumers tell the same pairs, namely those seen, each once. -/
structure Mirrors (links : Links) (count : Nat) : Prop where
  producersSize : links.producers.size = count
  consumersSize : links.consumers.size = count
  distinct : links.seen.Nodup
  mem_producers : ∀ consumer producer,
    producer ∈ links.producers.getD consumer [] ↔ (producer, consumer) ∈ links.seen
  mem_consumers : ∀ producer consumer,
    consumer ∈ links.consumers.getD producer [] ↔ (producer, consumer) ∈ links.seen
  nodup_producers : ∀ consumer, (links.producers.getD consumer []).Nodup
  nodup_consumers : ∀ producer, (links.consumers.getD producer []).Nodup

/-- Records without any pair are in step. -/
theorem mirrors_start (count : Nat) : (start count).Mirrors count := by
  have empty (position : Nat) : (Array.replicate count ([] : List Nat)).getD position [] = [] := by
    simp only [Array.getD_eq_getD_getElem?, Array.getElem?_replicate]
    split <;> rfl
  constructor <;> simp [start, empty]

/-- The list at a position after another position was added to one of the lists. -/
theorem getD_modify (lists : Array (List Nat)) (changed added position : Nat)
    (inside : changed < lists.size) :
    (lists.modify changed (· ++ [added])).getD position [] =
      if position = changed then lists.getD position [] ++ [added]
      else lists.getD position [] := by
  simp only [Array.getD_eq_getD_getElem?, Array.getElem?_modify]
  by_cases same : changed = position
  · subst same
    simp [Array.getElem?_eq_getElem inside]
  · simp [same, Ne.symm same]

/-- The lists stay without repetition when a new position is added to one of them. -/
theorem nodup_getD_modify {lists : Array (List Nat)} {changed added : Nat}
    (inside : changed < lists.size) (fresh : added ∉ lists.getD changed [])
    (once : ∀ position, (lists.getD position []).Nodup) (position : Nat) :
    ((lists.modify changed (· ++ [added])).getD position []).Nodup := by
  rw [getD_modify lists changed added position inside]
  split
  next same =>
    subst same
    exact (once position).append (List.nodup_singleton _) (by simpa using fresh)
  next => exact once position

/-- An addition is seen unless it leads from a position to itself. -/
theorem mem_seen_add (links : Links) (producer consumer : Nat) (pair : Nat × Nat) :
    pair ∈ (links.add producer consumer).seen ↔
      pair ∈ links.seen ∨ pair.1 ≠ pair.2 ∧ pair = (producer, consumer) := by
  unfold add
  split
  · grind
  · grind

/-- An addition keeps the records in step. -/
theorem Mirrors.add {links : Links} {count : Nat} (mirrors : links.Mirrors count)
    {producer consumer : Nat} (produces : producer < count) (consumes : consumer < count) :
    (links.add producer consumer).Mirrors count := by
  unfold Links.add
  split
  next fresh =>
    -- A pair that was not seen is in neither list, so that both lists stay without repetition.
    have newProducer := mt (mirrors.mem_producers consumer producer).mp fresh.2
    have newConsumer := mt (mirrors.mem_consumers producer consumer).mp fresh.2
    have consumesIn : consumer < links.producers.size := mirrors.producersSize ▸ consumes
    have producesIn : producer < links.consumers.size := mirrors.consumersSize ▸ produces
    refine ⟨?producersSize, ?consumersSize, ?distinct, ?producers, ?consumers, ?once, ?onceMore⟩
    case producersSize => rw [Array.size_modify, mirrors.producersSize]
    case consumersSize => rw [Array.size_modify, mirrors.consumersSize]
    case distinct => exact List.nodup_cons.mpr ⟨fresh.2, mirrors.distinct⟩
    case producers =>
      intro position other
      have before := mirrors.mem_producers position other
      rw [getD_modify _ _ _ _ consumesIn]
      grind
    case consumers =>
      intro position other
      have before := mirrors.mem_consumers position other
      rw [getD_modify _ _ _ _ producesIn]
      grind
    case once => exact nodup_getD_modify consumesIn newProducer mirrors.nodup_producers
    case onceMore => exact nodup_getD_modify producesIn newConsumer mirrors.nodup_consumers
  next => exact mirrors

/-- Records in step stay so under any additions of positions that exist. -/
theorem Mirrors.addAll {count : Nat} (pairs : List (Nat × Nat))
    (inside : ∀ pair ∈ pairs, pair.1 < count ∧ pair.2 < count) {links : Links}
    (mirrors : links.Mirrors count) : (links.addAll pairs).Mirrors count := by
  -- By induction on the additions; one addition is the step lemma.
  induction pairs generalizing links with
  | nil => exact mirrors
  | cons pair rest ih =>
    obtain ⟨produces, consumes⟩ := inside pair List.mem_cons_self
    exact ih (fun other member => inside other (List.mem_cons_of_mem _ member))
      (mirrors.add produces consumes)

/-- Exactly the added pairs of different positions are seen, however often they were added. -/
theorem mem_seen_addAll (pairs : List (Nat × Nat)) (links : Links) (pair : Nat × Nat) :
    pair ∈ (links.addAll pairs).seen ↔ pair ∈ links.seen ∨ pair.1 ≠ pair.2 ∧ pair ∈ pairs := by
  induction pairs generalizing links with
  | nil => simp [addAll]
  | cons first rest ih =>
    have step := ih (links.add first.1 first.2)
    rw [mem_seen_add] at step
    rw [addAll, List.foldl_cons, ← addAll, step, List.mem_cons]
    tauto

section

variable (written : List Footprint) (read : List (List Footprint))

/-- Every match of something read with a position that writes it, repetitions included. -/
def candidates : List (Nat × Nat) :=
  read.zipIdx.flatMap fun (read, consumer) => read.flatMap fun footprint =>
    footprint.names.flatMap fun name =>
      ((WriterIndex.ofWritten written).find (name, footprint.path)).map (·, consumer)

/-- The nested loops add their candidates one after another. -/
theorem between_eq :
    between written read = (start written.length).addAll (candidates written read) := by
  simp only [between, addReads, addAll, candidates, List.foldl_flatMap, List.foldl_map]

/-- Something that one position reads is written at the other. -/
def Matches (producer consumer : Nat) : Prop :=
  ∃ footprints, read[consumer]? = some footprints ∧ ∃ footprint ∈ footprints,
    ∃ name ∈ footprint.names, ∃ writer, written[producer]? = some writer ∧
      writer.path = footprint.path ∧ name ∈ writer.names

/-- A pair is a candidate once for every path and name that match, and at least once if one does. -/
theorem mem_candidates (producer consumer : Nat) :
    (producer, consumer) ∈ candidates written read ↔ Matches written read producer consumer := by
  simp only [candidates, Matches, List.mem_flatMap, List.mem_map, Prod.exists, Prod.mk.injEq,
    List.mem_zipIdx_iff_getElem?, WriterIndex.mem_find_ofWritten]
  constructor
  · rintro ⟨footprints, _, found, footprint, declared, name, named, _, writes, rfl, rfl⟩
    exact ⟨footprints, found, footprint, declared, name, named, writes⟩
  · rintro ⟨footprints, found, footprint, declared, name, named, writes⟩
    exact ⟨footprints, consumer, found, footprint, declared, name, named, producer, writes,
      rfl, rfl⟩

/-- A pair is seen exactly if its positions differ and something read is written there. -/
theorem mem_seen_between (producer consumer : Nat) :
    (producer, consumer) ∈ (between written read).seen ↔
      producer ≠ consumer ∧ Matches written read producer consumer := by
  rw [between_eq, mem_seen_addAll, mem_candidates]
  simp [start]

/-- The links between any two lists of attributes are in step. -/
theorem mirrors_between (aligned : read.length = written.length) :
    (between written read).Mirrors written.length := by
  rw [between_eq]
  refine (mirrors_start _).addAll _ ?_
  -- Candidates come from positions of the two lists, which are equally long.
  rintro ⟨producer, consumer⟩ listed
  obtain ⟨footprints, found, _, _, _, _, writer, writes, _⟩ :=
    (mem_candidates written read producer consumer).mp listed
  have consumes := (List.getElem?_eq_some_iff.mp found).1
  exact ⟨(List.getElem?_eq_some_iff.mp writes).1, aligned ▸ consumes⟩

end

end Links

end Rulebook
