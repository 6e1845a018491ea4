import Mathlib.Data.List.Forall2
import Mathlib.Data.Option.Basic
import Rulebook.Proofs.Decimal.Normal
import Rulebook.Proofs.Value.Content
import Rulebook.Value.Equality
import Rulebook.Value.Text

/-!
# Reading values of one content

Values that differ only in trailing zeros cannot be told apart by looking at them: they have the
same type, the same written form and like parts, and they are equal to, and ordered against, the
same values.
-/
namespace Rulebook

namespace Value

mutual

theorem SameContent.refl : ∀ value : Value, value.SameContent value
  | .null => .null
  | .bool truth => .bool truth
  | .number _ => .number rfl
  | .text characters => .text characters
  | .date day => .date day
  | .dateTime moment => .dateTime moment
  | .money _ currency => .money rfl currency
  | .list items => .list (SameItems.refl items)
  | .map entries => .map (SameEntries.refl entries)
  | .absent => .absent
  | .present inner => .present (SameContent.refl inner)
  | .entity typeName identity fields => .entity typeName identity (SameEntries.refl fields)

/-- Lists have the content of themselves, item by item. -/
theorem SameItems.refl : ∀ items : List Value, SameItems items items
  | [] => .nil
  | item :: items => .cons (SameContent.refl item) (SameItems.refl items)

theorem SameEntries.refl : ∀ entries : List (String × Value), SameEntries entries entries
  | [] => .nil
  | (name, value) :: entries => .cons name (SameContent.refl value) (SameEntries.refl entries)

end

/-- Lists have one content exactly if they have it at every place, so lemmas on related lists apply.
-/
theorem sameItems_iff_forall₂ {lefts rights : List Value} :
    SameItems lefts rights ↔ List.Forall₂ SameContent lefts rights := by
  constructor
  · intro same
    induction lefts generalizing rights with
    | nil => cases same; exact .nil
    | cons left lefts ih => cases same with | cons item items => exact .cons item (ih items)
  · intro same
    induction same with
    | nil => exact .nil
    | cons item _ ih => exact .cons item ih

/-- Maps of one content have values of one content in the same order. -/
theorem SameEntries.values {lefts rights : List (String × Value)}
    (same : SameEntries lefts rights) :
    List.Forall₂ SameContent (lefts.map (·.2)) (rights.map (·.2)) := by
  induction lefts generalizing rights with
  | nil => cases same; exact .nil
  | cons left lefts ih => cases same with | cons _ value entries => exact .cons value (ih entries)

/-- A name leads to nothing in both tables, or to values of one content. -/
theorem SameEntries.find? {lefts rights : List (String × Value)} (same : SameEntries lefts rights)
    (name : String) :
    Option.Rel SameContent (Table.find? name lefts) (Table.find? name rights) := by
  induction lefts generalizing rights with
  | nil => cases same; exact .none
  | cons left lefts ih =>
    cases same with
    | cons key value entries =>
      unfold Table.find?
      by_cases found : key = name
      · simpa only [if_pos found] using .some value
      · simpa only [if_neg found] using ih entries

namespace SameContent

variable {left right left' right' : Value}

theorem isNull_eq (same : left.SameContent right) : left.isNull = right.isNull := by
  cases same <;> rfl

/-- The type of a value does not depend on how its numbers are written. -/
theorem typeName_eq (same : left.SameContent right) : left.typeName = right.typeName := by
  cases same <;> rfl

/-- The numeric components of a value and of its like are both missing or have one value. -/
theorem number? (same : left.SameContent right) :
    Option.Rel Decimal.SameValue left.number? right.number? := by
  cases same with
  | number amount => exact .some amount
  | money amount _ => exact .some amount
  | _ => exact .none

/-- Opening the layers of two values of one content leaves values of one content. -/
theorem bare : ∀ {left right : Value}, left.SameContent right → left.bare.SameContent right.bare
  | .present _, _, .present inner => inner.bare
  | .absent, _, .absent => .null
  | .null, _, .null => .null
  | .bool _, _, .bool truth => .bool truth
  | .number _, _, .number amount => .number amount
  | .text _, _, .text characters => .text characters
  | .date _, _, .date day => .date day
  | .dateTime _, _, .dateTime moment => .dateTime moment
  | .money _ _, _, .money amount currency => .money amount currency
  | .list _, _, .list items => .list items
  | .map _, _, .map entries => .map entries
  | .entity _ _ _, _, .entity typeName identity fields => .entity typeName identity fields

end SameContent

mutual

/-- Values of one content are written alike: numbers are written without trailing zeros. -/
theorem SameContent.display_eq {left right : Value} :
    left.SameContent right → left.display = right.display
  | .null | .bool _ | .text _ | .date _ | .dateTime _ | .absent | .entity _ _ _ => by
    simp only [display]
  | .number amount => Arithmetic.toPlain_eq_of_toRat_eq amount
  | .money amount _ => by
    rw [display, display, Arithmetic.toPlain_eq_of_toRat_eq amount]
  | .list items => by rw [display, display, items.displayItems_eq]
  | .map entries => by rw [display, display, entries.displayEntries_eq]
  | .present inner => by rw [display, display, inner.display_eq]

theorem SameItems.displayItems_eq {left right : List Value} :
    SameItems left right → displayItems left = displayItems right
  | .nil => rfl
  | .cons item items => by
    rw [displayItems, displayItems, item.display_eq, items.displayItems_eq]

theorem SameEntries.displayEntries_eq {left right : List (String × Value)} :
    SameEntries left right → displayEntries left = displayEntries right
  | .nil => rfl
  | .cons _ value entries => by
    rw [displayEntries, displayEntries, value.display_eq, entries.displayEntries_eq]

end

mutual

/-- Sameness does not tell values of one content apart, on either side. -/
theorem SameContent.sameAs_eq {left right : Value} (same : left.SameContent right)
    {left' right' : Value} (same' : left'.SameContent right') :
    left.sameAs left' = right.sameAs right' := by
  -- A value is the same as others of its own kind only, so the cases off the diagonal are alike.
  cases same with
  | number amount =>
    cases same' with
    | number amount' =>
      rw [sameAs, sameAs, Decimal.order_eq_of_toRat_eq amount amount']
    | _ => rfl
  | money amount _ =>
    cases same' with
    | money amount' _ => rw [sameAs, sameAs, Decimal.order_eq_of_toRat_eq amount amount']
    | _ => rfl
  | list items =>
    cases same' with
    | list items' => rw [sameAs, sameAs, items.sameItems_eq items']
    | _ => rfl
  | map entries =>
    cases same' with
    | map entries' =>
      rw [sameAs, sameAs, entries.sameEntries_eq entries', entries.length_eq, entries'.length_eq]
    | _ => rfl
  | present inner =>
    cases same' with
    | present inner' => exact inner.sameAs_eq inner'
    | _ => rfl
  | entity _ _ fields =>
    cases same' with
    | entity _ _ fields' =>
      rw [sameAs, sameAs, fields.sameEntries_eq fields', fields.length_eq, fields'.length_eq]
    | _ => rfl
  | _ => cases same' <;> rfl

theorem SameItems.sameItems_eq {lefts rights : List Value} (same : SameItems lefts rights)
    {lefts' rights' : List Value} (same' : SameItems lefts' rights') :
    sameItems lefts lefts' = sameItems rights rights' := by
  cases same with
  | nil => cases same' <;> rfl
  | cons item items =>
    cases same' with
    | nil => rfl
    | cons item' items' =>
      rw [sameItems, sameItems, item.sameAs_eq item', items.sameItems_eq items']

/-- Maps are compared by looking the names of the one up in the other. -/
theorem SameEntries.sameEntries_eq {lefts rights : List (String × Value)}
    (same : SameEntries lefts rights) {lefts' rights' : List (String × Value)}
    (same' : SameEntries lefts' rights') :
    sameEntries lefts lefts' = sameEntries rights rights' := by
  cases same with
  | nil => rfl
  | cons name value entries =>
    rw [sameEntries, sameEntries, entries.sameEntries_eq same']
    -- The order of the other map does not matter: only what its names lead to is read.
    have related := same'.find? name
    generalize Table.find? name lefts' = found at related ⊢
    generalize Table.find? name rights' = found' at related ⊢
    cases related with
    | none => rfl
    | some item => simp only [value.sameAs_eq item]

end

namespace SameContent

variable {left right left' right' : Value}

/-- Equality under the layers does not tell values of one content apart. -/
theorem bareEquals_eq (same : left.SameContent right) (same' : left'.SameContent right') :
    left.bareEquals left' = right.bareEquals right' := by
  have content := same.sameAs_eq same'
  -- Money and numbers compare with each other, so these cases do not follow from sameness.
  cases same with
  | number amount =>
    cases same' with
    | number amount' | money amount' _ => exact Arithmetic.equal_eq_of_toRat_eq amount amount'
    | _ => rfl
  | money amount _ =>
    cases same' with
    | number amount' => exact Arithmetic.equal_eq_of_toRat_eq amount amount'
    | money amount' _ => simp only [bareEquals, Arithmetic.equal_eq_of_toRat_eq amount amount']
    | _ => rfl
  -- What is made of other values is compared by its content.
  | list _ | map _ | present _ | entity _ _ _ =>
    cases same' with
    | list _ | map _ | present _ | entity _ _ _ => exact content
    | _ => rfl
  | _ => cases same' <;> rfl

/-- Values of one content come out alike in every comparison of order. -/
theorem comparison_eq (same : left.SameContent right) (same' : left'.SameContent right') :
    left.comparison left' = right.comparison right' := by
  have bare := same.bare
  have bare' := same'.bare
  unfold comparison
  -- Only what is under the layers is compared, so the values themselves can be forgotten.
  generalize left.bare = value at bare ⊢
  generalize right.bare = other at bare ⊢
  generalize left'.bare = value' at bare' ⊢
  generalize right'.bare = other' at bare' ⊢
  cases bare with
  | number amount | money amount _ =>
    cases bare' with
    | number amount' | money amount' _ =>
      exact congrArg Comparison.ordered (Arithmetic.order_eq_of_toRat_eq amount amount')
    | _ => rfl
  | _ => cases bare' <;> rfl

end SameContent

mutual

/-- The operator of equality does not tell values of one content apart. -/
theorem SameContent.equals_eq {left right : Value} (same : left.SameContent right)
    {left' right' : Value} (same' : left'.SameContent right') :
    left.equals left' = right.equals right' := by
  have bare := same.bare
  have bare' := same'.bare
  cases same with
  | present inner => exact inner.equals_eq same'
  | list items =>
    -- A list equals what is a list under its layers.
    rw [equals, equals]
    generalize left'.bare = value' at bare' ⊢
    generalize right'.bare = other' at bare' ⊢
    cases bare' with
    | list items' => exact items.equalItems_eq items'
    | _ => rfl
  | _ => exact bare.bareEquals_eq bare'

theorem SameItems.equalItems_eq {lefts rights : List Value} (same : SameItems lefts rights)
    {lefts' rights' : List Value} (same' : SameItems lefts' rights') :
    equalItems lefts lefts' = equalItems rights rights' := by
  cases same with
  | nil => cases same' <;> rfl
  | cons item items =>
    cases same' with
    | nil => rfl
    | cons item' items' =>
      rw [equalItems, equalItems, item.equals_eq item', items.equalItems_eq items']

end

section

open List (Forall₂)

/-- Without their nulls, lists of one content still have one content. -/
theorem forall₂_filter_notNull {lefts rights : List Value}
    (same : Forall₂ SameContent lefts rights) :
    Forall₂ SameContent (lefts.filter (!·.isNull)) (rights.filter (!·.isNull)) :=
  List.rel_filter (fun _ _ related => iff_of_eq (by simp only [related.isNull_eq])) same

/-- The items at a position, null where there is none, have one content. -/
theorem forall₂_getD_null {lefts rights : List Value} (same : Forall₂ SameContent lefts rights)
    (position : Nat) : SameContent (lefts.getD position null) (rights.getD position null) := by
  induction same generalizing position with
  | nil => exact .null
  | cons head _ ih =>
    cases position with
    | zero => exact head
    | succ position => exact ih position

end

end Value

end Rulebook
