import Mathlib.Data.List.Perm.Subperm
import Rulebook.Proofs.Value.Reading

/-!
# Equality of content

Two values of one content are made in the same way of parts of one content, and this says all there
is to their equality. So it is an equivalence by an induction over parts. Entries of maps and fields
are matched by name, whatever their order; for that no name may occur twice.
-/
namespace Rulebook

open List (Forall₂)

namespace Table

variable {Item : Type} {related : Item → Item → Prop} {table lefts middles rights : Table Item}

/-- The names of a table occur once each. -/
def Distinct (table : Table Item) : Prop :=
  (names table).Nodup

instance (table : Table Item) : Decidable table.Distinct :=
  inferInstanceAs (Decidable (List.Nodup _))

theorem exists_mem_of_mem_names {name : String} (member : name ∈ names table) :
    ∃ item, (name, item) ∈ table := by
  obtain ⟨⟨_, item⟩, found, rfl⟩ := List.mem_map.mp member
  exact ⟨item, found⟩

/-- The tables have as many entries, and each one on the left has, under its name on the right, a
related one. -/
structure Matches (related : Item → Item → Prop) (lefts rights : Table Item) : Prop where
  length_eq : lefts.length = rights.length
  found : ∀ name left, (name, left) ∈ lefts →
    ∃ right, find? name rights = some right ∧ related left right

namespace Matches

theorem refl (distinct : table.Distinct)
    (reflexive : ∀ name item, (name, item) ∈ table → related item item) :
    Matches related table table where
  length_eq := rfl
  found name item member := ⟨item, find?_of_mem distinct member, reflexive name item member⟩

theorem trans (first : Matches related lefts middles) (second : Matches related middles rights)
    (transitive : ∀ name left, (name, left) ∈ lefts → ∀ middle right, related left middle →
      related middle right → related left right) : Matches related lefts rights where
  length_eq := first.length_eq.trans second.length_eq
  found name left member := by
    obtain ⟨middle, found, same⟩ := first.found name left member
    obtain ⟨right, found', same'⟩ := second.found name middle (mem_of_find? found)
    exact ⟨right, found', transitive name left member middle right same same'⟩

/-- As no name on the left occurs twice and there are no more on the right, the names are the
same. -/
theorem names_perm (matched : Matches related lefts rights) (distinct : lefts.Distinct) :
    (names lefts).Perm (names rights) := by
  have contained : names lefts ⊆ names rights := by
    intro name member
    obtain ⟨left, member⟩ := exists_mem_of_mem_names member
    obtain ⟨right, found, _⟩ := matched.found name left member
    exact List.mem_map_of_mem (mem_of_find? found)
  refine (List.subperm_of_subset distinct contained).perm_of_length_le ?_
  rw [names, names, List.length_map, List.length_map, matched.length_eq]

theorem symm (matched : Matches related lefts rights) (distinct : lefts.Distinct)
    (symmetric : ∀ name left, (name, left) ∈ lefts → ∀ right, related left right →
      related right left) : Matches related rights lefts where
  length_eq := matched.length_eq.symm
  found name right member := by
    have perm := matched.names_perm distinct
    have distinct' : rights.Distinct := perm.nodup_iff.mp distinct
    obtain ⟨left, member'⟩ := exists_mem_of_mem_names
      (perm.mem_iff.mpr (List.mem_map_of_mem member : name ∈ names rights))
    obtain ⟨right', found, same⟩ := matched.found name left member'
    rw [find?_of_mem distinct' member] at found
    cases found
    exact ⟨left, find?_of_mem distinct member', symmetric name left member' right same⟩

end Matches

end Table

namespace Value

/-- The values that a value is directly made of. -/
def parts : Value → List Value
  | list items => items
  | map entries | entity _ _ entries => entries.map (·.2)
  | present inner => [inner]
  | _ => []

/-- The entries that a value keeps under names. -/
def entries : Value → Table Value
  | map entries | entity _ _ entries => entries
  | _ => []

theorem sizeOf_lt_of_mem_parts {part value : Value} (member : part ∈ value.parts) :
    sizeOf part < sizeOf value := by
  have ofEntry {table : Table Value} (member : part ∈ table.map (·.2)) :
      sizeOf part < sizeOf table := by
    obtain ⟨⟨name, value⟩, found, rfl⟩ := List.mem_map.mp member
    have smaller := List.sizeOf_lt_of_mem found
    rw [Prod.mk.sizeOf_spec] at smaller
    show sizeOf value < sizeOf table
    omega
  cases value with
  | list items =>
    have smaller : sizeOf part < sizeOf items := List.sizeOf_lt_of_mem member
    rw [list.sizeOf_spec]
    omega
  | map table =>
    have smaller := ofEntry member
    rw [map.sizeOf_spec]
    omega
  | entity typeName identity fields =>
    have smaller := ofEntry member
    rw [entity.sizeOf_spec]
    omega
  | present inner =>
    cases List.mem_singleton.mp member
    rw [present.sizeOf_spec]
    omega
  | _ => cases member

/-- What holds of a value if it holds of its parts holds of every value. -/
@[elab_as_elim]
theorem inductionOnParts {motive : Value → Prop}
    (step : ∀ value, (∀ part ∈ value.parts, motive part) → motive value) (value : Value) :
    motive value :=
  step value fun part _ => inductionOnParts step part
termination_by sizeOf value
decreasing_by exact sizeOf_lt_of_mem_parts ‹_›

/-- No map and no entity in the value has a name twice. -/
inductive KeysDistinct : Value → Prop
  | intro {value : Value} (entries : value.entries.Distinct)
      (parts : ∀ part ∈ value.parts, part.KeysDistinct) : value.KeysDistinct

theorem KeysDistinct.of_scalar {value : Value} (noEntries : value.entries = [])
    (noParts : value.parts = []) : value.KeysDistinct :=
  .intro (noEntries ▸ List.nodup_nil) (noParts ▸ List.forall_mem_nil _)

/-- Values that are made in the same way of parts of one content. -/
inductive SameMake : Value → Value → Prop
  | null : SameMake null null
  | bool (truth : Bool) : SameMake (bool truth) (bool truth)
  | number {left right : Decimal} (amount : left.SameValue right) :
      SameMake (number left) (number right)
  | text (characters : String) : SameMake (text characters) (text characters)
  | date (day : Date) : SameMake (date day) (date day)
  | dateTime (moment : DateTime) : SameMake (dateTime moment) (dateTime moment)
  | money {left right : Decimal} (amount : left.SameValue right) (currency : String) :
      SameMake (money left currency) (money right currency)
  | list {lefts rights : List Value} (items : Forall₂ (sameAs · ·) lefts rights) :
      SameMake (list lefts) (list rights)
  | map {lefts rights : Table Value} (entries : Table.Matches (sameAs · ·) lefts rights) :
      SameMake (map lefts) (map rights)
  | absent : SameMake absent absent
  | present {left right : Value} (inner : left.sameAs right) :
      SameMake (present left) (present right)
  | entity (typeName : String) (identity : Option String) {lefts rights : Table Value}
      (fields : Table.Matches (sameAs · ·) lefts rights) :
      SameMake (entity typeName identity lefts) (entity typeName identity rights)

theorem sameItems_iff {lefts rights : List Value} :
    sameItems lefts rights ↔ Forall₂ (sameAs · ·) lefts rights := by
  induction lefts generalizing rights with
  | nil => cases rights <;> simp [sameItems]
  | cons left lefts ih => cases rights <;> simp [sameItems, ih]

theorem sameEntries_iff {lefts rights : Table Value} :
    sameEntries lefts rights ↔ ∀ name left, (name, left) ∈ lefts →
      ∃ right, Table.find? name rights = some right ∧ left.sameAs right := by
  induction lefts with
  | nil => simp [sameEntries]
  | cons entry lefts ih =>
    obtain ⟨key, value⟩ := entry
    have head : sameEntries ((key, value) :: lefts) rights ↔
        (∃ right, Table.find? key rights = some right ∧ value.sameAs right) ∧
          sameEntries lefts rights := by
      rw [sameEntries, Bool.and_eq_true]
      cases Table.find? key rights <;> simp
    rw [head, ih]
    constructor
    · rintro ⟨found, rest⟩ name left (_ | ⟨_, later⟩)
      · exact found
      · exact rest name left later
    · intro all
      exact ⟨all key value List.mem_cons_self,
        fun name left later => all name left (List.mem_cons_of_mem _ later)⟩

theorem matches_iff {lefts rights : Table Value} :
    (lefts.length == rights.length && sameEntries lefts rights) ↔
      Table.Matches (sameAs · ·) lefts rights := by
  rw [Bool.and_eq_true, beq_iff_eq, sameEntries_iff]
  exact ⟨fun ⟨length, found⟩ => ⟨length, found⟩, fun matched => ⟨matched.length_eq, matched.found⟩⟩

theorem sameAmount_iff {left right : Decimal} :
    (left.order right == .eq) ↔ left.SameValue right := by
  rw [beq_iff_eq]
  exact Decimal.order_eq_iff left right

theorem sameAs_iff {left right : Value} : left.sameAs right ↔ SameMake left right := by
  constructor
  · -- The test fails on values of two different constructors.
    intro same
    cases left with
    | null => cases right with
      | null => exact .null
      | _ => cases same
    | bool truth => cases right with
      | bool truth' => cases eq_of_beq same; exact .bool truth
      | _ => cases same
    | number amount => cases right with
      | number amount' => exact .number (sameAmount_iff.mp same)
      | _ => cases same
    | text characters => cases right with
      | text characters' => cases eq_of_beq same; exact .text characters
      | _ => cases same
    | date day => cases right with
      | date day' => cases eq_of_beq same; exact .date day
      | _ => cases same
    | dateTime moment => cases right with
      | dateTime moment' => cases eq_of_beq same; exact .dateTime moment
      | _ => cases same
    | money amount currency => cases right with
      | money amount' currency' =>
        obtain ⟨amounts, currencies⟩ := Bool.and_eq_true_iff.mp same
        cases eq_of_beq currencies
        exact .money (sameAmount_iff.mp amounts) currency
      | _ => cases same
    | list items => cases right with
      | list items' => exact .list (sameItems_iff.mp same)
      | _ => cases same
    | map entries => cases right with
      | map entries' => exact .map (matches_iff.mp same)
      | _ => cases same
    | absent => cases right with
      | absent => exact .absent
      | _ => cases same
    | present inner => cases right with
      | present inner' => exact .present same
      | _ => cases same
    | entity typeName identity fields => cases right with
      | entity typeName' identity' fields' =>
        rw [sameAs, Bool.and_assoc, Bool.and_eq_true, Bool.and_eq_true, beq_iff_eq,
          beq_iff_eq] at same
        obtain ⟨⟨rfl, rfl⟩, fields⟩ := same
        exact .entity typeName identity (matches_iff.mp fields)
      | _ => cases same
  · intro same
    cases same with
    | number amount => exact sameAmount_iff.mpr amount
    | money amount currency =>
      exact Bool.and_eq_true_iff.mpr ⟨sameAmount_iff.mpr amount, beq_self_eq_true currency⟩
    | list items => exact sameItems_iff.mpr items
    | map entries => exact matches_iff.mpr entries
    | present inner => exact inner
    | entity typeName identity fields =>
      rw [sameAs, Bool.and_assoc, matches_iff.mpr fields]
      simp only [beq_self_eq_true, Bool.and_self]
    | null | absent => rfl
    | bool _ | text _ | date _ | dateTime _ => exact beq_self_eq_true _

theorem sameAs_refl {value : Value} (distinct : value.KeysDistinct) : value.sameAs value := by
  induction distinct with | @intro value entries _ parts
  rw [sameAs_iff]
  cases value with
  | null => exact .null
  | bool truth => exact .bool truth
  | number amount => exact .number rfl
  | text characters => exact .text characters
  | date day => exact .date day
  | dateTime moment => exact .dateTime moment
  | money amount currency => exact .money rfl currency
  | list items => exact .list (List.forall₂_same.mpr parts)
  | map table =>
    exact .map (.refl entries fun _ item member => parts item (List.mem_map_of_mem member))
  | absent => exact .absent
  | present inner => exact .present (parts inner List.mem_cons_self)
  | entity typeName identity fields =>
    exact .entity typeName identity
      (.refl entries fun _ item member => parts item (List.mem_map_of_mem member))

theorem sameAs_symm {left right : Value} (distinct : left.KeysDistinct)
    (same : left.sameAs right) : right.sameAs left := by
  induction distinct generalizing right with | @intro left entries _ parts
  rw [sameAs_iff] at same ⊢
  cases same with
  | number amount => exact .number amount.symm
  | money amount currency => exact .money amount.symm currency
  | list items =>
    have both := (List.forall₂_and_left _ _).mpr ⟨parts, items⟩
    exact .list (List.Forall₂.flip (both.imp fun _ _ ⟨symmetric, same⟩ => symmetric same))
  | map table =>
    exact .map (table.symm entries fun _ item member _ => parts item (List.mem_map_of_mem member))
  | present inner => exact .present (parts _ List.mem_cons_self inner)
  | entity typeName identity fields =>
    exact .entity typeName identity
      (fields.symm entries fun _ item member _ => parts item (List.mem_map_of_mem member))
  | null => exact .null
  | bool truth => exact .bool truth
  | text characters => exact .text characters
  | date day => exact .date day
  | dateTime moment => exact .dateTime moment
  | absent => exact .absent

theorem forall₂_sameAs_trans {lefts middles rights : List Value}
    (first : Forall₂ (sameAs · ·) lefts middles) (second : Forall₂ (sameAs · ·) middles rights)
    (transitive : ∀ left ∈ lefts, ∀ middle right, left.sameAs middle → middle.sameAs right →
      left.sameAs right) : Forall₂ (sameAs · ·) lefts rights := by
  induction first generalizing rights with
  | nil => exact second
  | cons head _ ih =>
    cases second with
    | cons head' rest' =>
      obtain ⟨atHead, atRest⟩ := List.forall_mem_cons.mp transitive
      exact .cons (atHead _ _ head head') (ih rest' atRest)

theorem sameAs_trans {left middle right : Value} (first : left.sameAs middle)
    (second : middle.sameAs right) : left.sameAs right := by
  induction left using inductionOnParts generalizing middle right with | step left parts
  rw [sameAs_iff] at first second ⊢
  cases first with
  | number amount => cases second with
    | number amount' => exact .number (amount.trans amount')
  | money amount currency => cases second with
    | money amount' _ => exact .money (amount.trans amount') currency
  | list items => cases second with
    | list items' =>
      exact .list (forall₂_sameAs_trans items items' fun item member _ _ => parts item member)
  | map entries => cases second with
    | map entries' =>
      exact .map (entries.trans entries' fun _ item member _ _ =>
        parts item (List.mem_map_of_mem member))
  | present inner => cases second with
    | present inner' => exact .present (parts _ List.mem_cons_self inner inner')
  | entity typeName identity fields => cases second with
    | entity _ _ fields' =>
      exact .entity typeName identity
        (fields.trans fields' fun _ item member _ _ => parts item (List.mem_map_of_mem member))
  -- The others are like nothing but themselves.
  | null | bool _ | text _ | date _ | dateTime _ | absent => exact second

end Value

end Rulebook
