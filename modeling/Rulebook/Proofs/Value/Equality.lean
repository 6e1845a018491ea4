import Rulebook.Proofs.Value.Sameness

/-!
# Equality as rules see it

Rules read a value in a certain way before they compare it: without its optional layers, with its
numbers and amounts of money in normal form, and a date as the midnight that begins it. Two values
are equal if they have the same content when read so, and if besides no two amounts of money that
stand in the same place are in different currencies. The first is an equivalence. The second is not,
since a number agrees with amounts in all currencies, and this is all that keeps equality from being
transitive.
-/
namespace Rulebook

open List (Forall₂)

namespace Value

mutual

/-- The value as rules read it when they compare it. What is inside maps and entities is taken as it
is. -/
def reading : Value → Value
  | present inner => reading inner
  | absent => null
  | number amount | money amount _ => number (normalize amount)
  | date day => dateTime (.ofDate day)
  | list items => list (readings items)
  | value => value

def readings : List Value → List Value
  | [] => []
  | item :: items => reading item :: readings items

end

/-- The currency of the money at a place: at positions in lists that stand in one another. -/
def currencyAt : List Nat → Value → Option String
  | [], value =>
    match value.bare with
    | money _ currency => some currency
    | _ => none
  | position :: place, value =>
    match value.bare with
    | list items => items[position]?.bind (currencyAt place)
    | _ => none

/-- No two amounts of money in the same place are in different currencies. -/
def CurrenciesAgree (left right : Value) : Prop :=
  ∀ place, ∀ currency ∈ currencyAt place left, ∀ currency' ∈ currencyAt place right,
    currency = currency'

theorem readings_eq_map (items : List Value) : readings items = items.map reading := by
  induction items with
  | nil => rfl
  | cons item items ih => rw [readings, ih, List.map_cons]

theorem KeysDistinct.reading {value : Value} (distinct : value.KeysDistinct) :
    value.reading.KeysDistinct := by
  induction distinct with | @intro value entries members parts
  cases value with
  | present inner => exact parts inner List.mem_cons_self
  | list items =>
    rw [Value.reading, readings_eq_map]
    exact .intro List.nodup_nil (List.forall_mem_map.mpr parts)
  | map _ | entity _ _ _ => exact .intro entries members
  | null | bool _ | number _ | text _ | date _ | dateTime _ | money _ _ | absent =>
    exact .of_scalar rfl rfl

theorem equalItems_iff {lefts rights : List Value} :
    equalItems lefts rights ↔ Forall₂ (equals · ·) lefts rights := by
  induction lefts generalizing rights with
  | nil => cases rights <;> simp [equalItems]
  | cons left lefts ih => cases rights <;> simp [equalItems, ih]

/-! ## Optional layers -/

theorem equals_present_right : ∀ left right : Value,
    left.equals (present right) = left.equals right
  | present inner, right => equals_present_right inner right
  | list _, _ | null, _ | bool _, _ | number _, _ | text _, _ | date _, _ | dateTime _, _
  | money _ _, _ | map _, _ | absent, _ | entity _ _ _, _ => rfl

theorem equals_absent_right : ∀ left : Value, left.equals absent = left.equals null
  | present inner => equals_absent_right inner
  | list _ | null | bool _ | number _ | text _ | date _ | dateTime _ | money _ _ | map _ | absent
  | entity _ _ _ => rfl

theorem currencyAt_present (place : List Nat) (inner : Value) :
    (present inner).currencyAt place = inner.currencyAt place := by
  cases place <;> rfl

namespace CurrenciesAgree

variable {left right : Value}

theorem refl (value : Value) : value.CurrenciesAgree value :=
  fun _ _ found _ found' => Option.mem_unique found found'

theorem symm (agree : left.CurrenciesAgree right) : right.CurrenciesAgree left :=
  fun place _ found _ found' => (agree place _ found' _ found).symm

theorem present_left (inner right : Value) :
    (present inner).CurrenciesAgree right ↔ inner.CurrenciesAgree right := by
  simp only [CurrenciesAgree, currencyAt_present]

theorem present_right (left inner : Value) :
    left.CurrenciesAgree (present inner) ↔ left.CurrenciesAgree inner := by
  simp only [CurrenciesAgree, currencyAt_present]

/-- A value that is neither money nor a list has no money in any place. -/
theorem of_scalar (noMoney : ∀ amount currency, left.bare ≠ money amount currency)
    (noList : ∀ items, left.bare ≠ list items) : left.CurrenciesAgree right := by
  intro place currency found
  cases place with
  | nil =>
    rw [currencyAt] at found
    split at found
    next same => exact absurd same (noMoney _ _)
    next => cases found
  | cons position place =>
    rw [currencyAt] at found
    split at found
    next same => exact absurd same (noList _)
    next => cases found

theorem nil_left : (list []).CurrenciesAgree right := by
  intro place
  cases place <;> exact nofun

theorem money_iff {amount amount' : Decimal} {currency currency' : String} :
    (money amount currency).CurrenciesAgree (money amount' currency') ↔ currency = currency' := by
  constructor
  · exact fun agree => agree [] currency rfl currency' rfl
  · rintro rfl place
    cases place with
    | nil =>
      intro _ found _ found'
      exact Option.mem_unique found found'
    | cons position place => exact nofun

theorem list_cons_iff {lefts rights : List Value} :
    (list (left :: lefts)).CurrenciesAgree (list (right :: rights)) ↔
      left.CurrenciesAgree right ∧ (list lefts).CurrenciesAgree (list rights) := by
  constructor
  · intro agree
    refine ⟨fun place => agree (0 :: place), fun place => ?_⟩
    cases place with
    | nil => exact nofun
    | cons position place => exact agree ((position + 1) :: place)
  · -- The first position of a place tells whether it lies in the head or in the rest.
    rintro ⟨head, rest⟩ place
    match place with
    | [] => exact nofun
    | 0 :: place => exact head place
    | (position + 1) :: place => exact rest (position :: place)

end CurrenciesAgree

/-! ## Values that are read alike -/

/-- Values of one content as rules read them, without two currencies in one place. -/
def ReadAlike (left right : Value) : Prop :=
  left.reading.sameAs right.reading ∧ left.CurrenciesAgree right

/-- Layers on the right can be left out of account. -/
theorem equals_iff_of_layerless {left : Value}
    (layerless : ∀ right, (∀ inner, right ≠ present inner) →
      (left.equals right ↔ left.ReadAlike right)) (right : Value) :
    left.equals right ↔ left.ReadAlike right := by
  induction right using inductionOnParts with | step right parts
  cases right with
  | present inner =>
    rw [equals_present_right, ReadAlike, CurrenciesAgree.present_right]
    exact parts inner List.mem_cons_self
  | _ => exact layerless _ nofun

theorem equalItems_iff_readAlike {lefts : List Value}
    (members : ∀ left ∈ lefts, ∀ right, left.equals right ↔ left.ReadAlike right)
    (rights : List Value) :
    equalItems lefts rights ↔ (list lefts).ReadAlike (list rights) := by
  induction lefts generalizing rights with
  | nil =>
    rw [ReadAlike, and_iff_left CurrenciesAgree.nil_left]
    cases rights <;> rfl
  | cons left lefts ih =>
    obtain ⟨head, rest⟩ := List.forall_mem_cons.mp members
    cases rights with
    | nil => exact iff_of_false nofun (fun alike => nomatch alike.1)
    | cons right rights =>
      have same : (list (left :: lefts)).reading.sameAs (list (right :: rights)).reading ↔
          left.reading.sameAs right.reading ∧
            (list lefts).reading.sameAs (list rights).reading := Bool.and_eq_true_iff
      rw [equalItems, Bool.and_eq_true, head, ih rest, ReadAlike, ReadAlike, ReadAlike, same,
        CurrenciesAgree.list_cons_iff, and_and_and_comm]

/-- Equality as rules see it, told by what they read. -/
theorem equals_iff (left right : Value) : left.equals right ↔ left.ReadAlike right := by
  induction left using inductionOnParts generalizing right with | step left parts
  refine equals_iff_of_layerless (fun right layerless => ?_) right
  cases left with
  | present inner =>
    rw [ReadAlike, CurrenciesAgree.present_left]
    exact parts inner List.mem_cons_self right
  | list lefts => cases right with
    | present inner => exact absurd rfl (layerless inner)
    | list rights => exact equalItems_iff_readAlike parts rights
    | _ => exact iff_of_false nofun (fun alike => nomatch alike.1)
  | money amount currency => cases right with
    | present inner => exact absurd rfl (layerless inner)
    | number amount' =>
      have agree : (money amount currency).CurrenciesAgree (number amount') :=
        .symm (.of_scalar nofun nofun)
      exact (and_iff_left agree).symm
    | money amount' currency' =>
      have both : (money amount currency).equals (money amount' currency') ↔
          currency = currency' ∧ Arithmetic.equal amount amount' :=
        Bool.and_eq_true_iff.trans (and_congr_left fun _ => beq_iff_eq)
      rw [both, ReadAlike, CurrenciesAgree.money_iff, and_comm]
      rfl
    | _ => exact iff_of_false nofun (fun alike => nomatch alike.1)
  -- No money is looked at in the others, so what is read decides.
  | date day =>
    rw [ReadAlike, and_iff_left (.of_scalar nofun nofun)]
    cases right with
    | present inner => exact absurd rfl (layerless inner)
    | date day' =>
      have injective : day = day' ↔ DateTime.ofDate day = DateTime.ofDate day' :=
        ⟨congrArg DateTime.ofDate, congrArg DateTime.date⟩
      exact beq_iff_eq.trans (injective.trans beq_iff_eq.symm)
    | _ => exact Iff.rfl
  | dateTime moment =>
    rw [ReadAlike, and_iff_left (.of_scalar nofun nofun)]
    cases right with
    | present inner => exact absurd rfl (layerless inner)
    | date day => exact iff_of_eq (congrArg (· = true) Bool.beq_comm)
    | _ => exact Iff.rfl
  | null | bool _ | number _ | text _ | map _ | absent | entity _ _ _ =>
    rw [ReadAlike, and_iff_left (.of_scalar nofun nofun)]
    cases right with
    | present inner => exact absurd rfl (layerless inner)
    | _ => exact Iff.rfl

/-! ## Laws of equality -/

section

variable {left middle right : Value} {lefts rights : Table Value}

theorem equals_refl {value : Value} (distinct : value.KeysDistinct) : value.equals value :=
  (equals_iff value value).mpr ⟨sameAs_refl distinct.reading, .refl value⟩

theorem equals_symm (distinct : left.KeysDistinct) (equal : left.equals right) :
    right.equals left := by
  obtain ⟨same, agree⟩ := (equals_iff left right).mp equal
  exact (equals_iff right left).mpr ⟨sameAs_symm distinct.reading same, agree.symm⟩

theorem equals_comm (distinct : left.KeysDistinct) (distinct' : right.KeysDistinct) :
    left.equals right = right.equals left :=
  Bool.eq_iff_iff.mpr ⟨equals_symm distinct, equals_symm distinct'⟩

/-- Values that are equal to a third one are equal as far as their currencies agree. -/
theorem equals_iff_of_middle (first : left.equals middle) (second : middle.equals right) :
    left.equals right ↔ left.CurrenciesAgree right := by
  obtain ⟨same, _⟩ := (equals_iff left middle).mp first
  obtain ⟨same', _⟩ := (equals_iff middle right).mp second
  rw [equals_iff, ReadAlike, and_iff_right (sameAs_trans same same')]

/-- Values of one content are equal. -/
theorem equals_of_sameAs (same : left.sameAs right) : left.equals right := by
  induction left using inductionOnParts generalizing right with | step left parts
  have amounts {amount amount' : Decimal} (equal : amount.SameValue amount') :
      Arithmetic.equal amount amount' := by
    rw [Arithmetic.equal_eq_of_toRat_eq equal rfl]
    exact sameAmount_iff.mpr rfl
  have content := same
  rw [sameAs_iff] at same
  cases same with
  | number amount => exact amounts amount
  | money amount currency =>
    exact Bool.and_eq_true_iff.mpr ⟨beq_self_eq_true currency, amounts amount⟩
  | list items =>
    have both := (List.forall₂_and_left _ _).mpr ⟨parts, items⟩
    exact equalItems_iff.mpr (both.imp fun _ _ ⟨equal, same⟩ => equal same)
  | present inner =>
    rw [equals_present_right]
    exact parts _ List.mem_cons_self inner
  -- The others are compared by their content.
  | null | bool _ | text _ | date _ | dateTime _ | map _ | absent | entity _ _ _ => exact content

theorem equals_list_iff {lefts rights : List Value} :
    (list lefts).equals (list rights) ↔ Forall₂ (equals · ·) lefts rights :=
  equalItems_iff

theorem equals_map_iff :
    (map lefts).equals (map rights) ↔ Table.Matches (sameAs · ·) lefts rights :=
  matches_iff

/-- Equal maps have the same names, and equal values under each. -/
theorem values_of_equals_map (distinct : lefts.Distinct) (equal : (map lefts).equals (map rights)) :
    (∀ name, name ∈ Table.names lefts ↔ name ∈ Table.names rights) ∧
      ∀ name left right, Table.find? name lefts = some left → Table.find? name rights = some right →
        left.equals right := by
  have matched := equals_map_iff.mp equal
  refine ⟨fun name => (matched.names_perm distinct).mem_iff, fun name left right found found' => ?_⟩
  obtain ⟨other, foundOther, same⟩ := matched.found name left (Table.mem_of_find? found)
  cases found'.symm.trans foundOther
  exact equals_of_sameAs same

/-- Maps with the same names are equal if the values under each name have the same content. -/
theorem equals_map_of_values (distinct : lefts.Distinct) (distinct' : rights.Distinct)
    (names : ∀ name, name ∈ Table.names lefts ↔ name ∈ Table.names rights)
    (values : ∀ name left right, Table.find? name lefts = some left →
      Table.find? name rights = some right → left.sameAs right) :
    (map lefts).equals (map rights) := by
  -- Names that occur once each are as many on both sides, so the tables have one length.
  have perm := (List.perm_ext_iff_of_nodup distinct distinct').mpr names
  refine equals_map_iff.mpr ⟨?_, fun name left member => ?_⟩
  · simpa only [Table.names, List.length_map] using perm.length_eq
  · have present := (names name).mp (List.mem_map_of_mem member : name ∈ Table.names lefts)
    obtain ⟨right, member'⟩ := Table.exists_mem_of_mem_names present
    have found' := Table.find?_of_mem distinct' member'
    exact ⟨right, found', values name left right (Table.find?_of_mem distinct member) found'⟩

end

end Value

end Rulebook
