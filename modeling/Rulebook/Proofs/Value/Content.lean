import Rulebook.Proofs.Calendar.Text
import Rulebook.Proofs.Decimal.Trim
import Rulebook.Proofs.Digest.Delimited
import Rulebook.Rule.Canonical

/-!
# The bytes of values

The canonical bytes of a value tell its content: its structure, its texts and dates, the order of
its entries, and the value of every number, but not with how many zeros a number ends.
-/
namespace Rulebook

namespace Decimal

/-- Decimals of one value. -/
def SameValue (left right : Decimal) : Prop :=
  left.toRat = right.toRat

theorem bytes_eq_iff (left right : Decimal) : left.bytes = right.bytes ↔ left.SameValue right := by
  rw [SameValue, ← trim_eq_trim_iff]
  constructor
  · intro equal
    have room (number : Decimal) : number.trim.mantissa.natAbs < 256 ^ 12 := number.trim.mantissa_lt
    simp only [bytes, List.cons_append, List.nil_append, List.cons.injEq, true_and] at equal
    obtain ⟨scaleByte, signByte, rest⟩ := equal
    -- Twelve bytes hold every mantissa, and one byte every scale.
    have magnitudes := Bytes.littleEndian_injective 12 _ _ (room left) (room right) rest
    have scales : left.trim.scale = right.trim.scale := by
      have small := left.trim.scale_le
      have otherSmall := right.trim.scale_le
      have numbers := congrArg UInt8.toNat scaleByte
      simp only [UInt8.toNat_ofNat'] at numbers
      omega
    -- The sign byte holds nothing else.
    have signs : left.trim.mantissa < 0 ↔ right.trim.mantissa < 0 := by
      by_cases negative : left.trim.mantissa < 0
      · by_cases otherNegative : right.trim.mantissa < 0
        · simp [negative, otherNegative]
        · simp [negative, otherNegative] at signByte
      · by_cases otherNegative : right.trim.mantissa < 0
        · simp [negative, otherNegative] at signByte
        · simp [negative, otherNegative]
    have mantissas : left.trim.mantissa = right.trim.mantissa := by omega
    exact Decimal.ext mantissas scales rfl
  · intro same
    rw [bytes, same, bytes]

theorem bytes_delimited : Bytes.Delimited bytes (fun _ => True) SameValue := by
  apply Bytes.delimited_of_length 16
  · intro number
    simp [bytes, Bytes.length_littleEndian]
  · intro left right _ _ equal
    exact (bytes_eq_iff left right).mp equal

end Decimal

namespace Value

mutual

/-- All lengths in the value fit into eight bytes, and its date-times can be told apart when they
are written. -/
def Fits : Value → Prop
  | null | bool _ | number _ | date _ | absent => True
  | text characters => Bytes.TextFits characters
  | dateTime moment => moment.IsRegular
  | money _ currency => Bytes.TextFits currency
  | list items => items.length < Bytes.countLimit ∧ ItemsFit items
  | map entries => entries.length < Bytes.countLimit ∧ EntriesFit entries
  | present inner => Fits inner
  | entity typeName identity fields => Bytes.TextFits typeName ∧
      (∀ text ∈ identity, Bytes.TextFits text) ∧ fields.length < Bytes.countLimit ∧
      EntriesFit fields

def ItemsFit : List Value → Prop
  | [] => True
  | item :: items => Fits item ∧ ItemsFit items

def EntriesFit : List (String × Value) → Prop
  | [] => True
  | (name, value) :: entries => Bytes.TextFits name ∧ Fits value ∧ EntriesFit entries

end

mutual

/-- Values of one structure whose numbers have the same values. -/
inductive SameContent : Value → Value → Prop
  | null : SameContent null null
  | bool (truth : Bool) : SameContent (bool truth) (bool truth)
  | number {left right : Decimal} (amount : left.SameValue right) :
      SameContent (number left) (number right)
  | text (characters : String) : SameContent (text characters) (text characters)
  | date (day : Date) : SameContent (date day) (date day)
  | dateTime (moment : DateTime) : SameContent (dateTime moment) (dateTime moment)
  | money {left right : Decimal} (amount : left.SameValue right) (currency : String) :
      SameContent (money left currency) (money right currency)
  | list {left right : List Value} (items : SameItems left right) :
      SameContent (list left) (list right)
  | map {left right : List (String × Value)} (entries : SameEntries left right) :
      SameContent (map left) (map right)
  | absent : SameContent absent absent
  | present {left right : Value} (inner : SameContent left right) :
      SameContent (present left) (present right)
  | entity (typeName : String) (identity : Option String) {left right : List (String × Value)}
      (fields : SameEntries left right) :
      SameContent (entity typeName identity left) (entity typeName identity right)

inductive SameItems : List Value → List Value → Prop
  | nil : SameItems [] []
  | cons {left right : Value} {lefts rights : List Value} (item : SameContent left right)
      (items : SameItems lefts rights) : SameItems (left :: lefts) (right :: rights)

inductive SameEntries : List (String × Value) → List (String × Value) → Prop
  | nil : SameEntries [] []
  | cons (name : String) {left right : Value} {lefts rights : List (String × Value)}
      (value : SameContent left right) (entries : SameEntries lefts rights) :
      SameEntries ((name, left) :: lefts) ((name, right) :: rights)

end

theorem textFits_date (day : Date) : Bytes.TextFits day.text := by
  apply Bytes.textFits_of_length
  have short := day.length_text_le
  unfold Bytes.countLimit
  omega

theorem textFits_dateTime (moment : DateTime) : Bytes.TextFits moment.fullText := by
  apply Bytes.textFits_of_length
  have short := moment.length_fullText_le
  unfold Bytes.countLimit
  omega

open Bytes in
mutual

theorem bytes_delimited : ∀ left right : Value, left.Fits → right.Fits →
    ∀ afterLeft afterRight, left.bytes ++ afterLeft = right.bytes ++ afterRight →
      SameContent left right ∧ afterLeft = afterRight
  | .null, right, _, _, afterLeft, afterRight, equal => by
    cases right with
    | null => exact ⟨.null, by simpa [bytes] using equal⟩
    | _ => simp [bytes] at equal
  | .bool truth, right, _, _, afterLeft, afterRight, equal => by
    cases right with
    | bool other =>
      -- The byte behind the tag is the truth value.
      simp only [bytes, List.cons_append, List.nil_append, List.cons.injEq, true_and] at equal
      obtain rfl : truth = other := by
        cases truth <;> cases other <;> simp at equal <;> rfl
      exact ⟨.bool truth, equal.2⟩
    | _ => simp [bytes] at equal
  | .number amount, right, _, _, afterLeft, afterRight, equal => by
    cases right with
    -- The first byte is the tag of the constructor, so two constructors part there.
    | number other =>
      simp only [bytes, List.cons_append, List.cons.injEq, true_and] at equal
      obtain ⟨same, after⟩ := Decimal.bytes_delimited _ _ trivial trivial _ _ equal
      exact ⟨.number same, after⟩
    | _ => simp [bytes] at equal
  | .text characters, right, leftFits, rightFits, afterLeft, afterRight, equal => by
    cases right with
    | text other =>
      simp only [bytes, List.cons_append, List.cons.injEq, true_and] at equal
      rw [Fits] at leftFits rightFits
      obtain ⟨rfl, after⟩ := ofText_delimited _ _ leftFits rightFits _ _ equal
      exact ⟨.text characters, after⟩
    | _ => simp [bytes] at equal
  | .date day, right, _, _, afterLeft, afterRight, equal => by
    cases right with
    | date other =>
      simp only [bytes, List.cons_append, List.cons.injEq, true_and] at equal
      -- Dates are written as texts, and these tell them.
      obtain ⟨texts, after⟩ :=
        ofText_delimited _ _ (textFits_date day) (textFits_date other) _ _ equal
      obtain rfl := Date.text_injective texts
      exact ⟨.date day, after⟩
    | _ => simp [bytes] at equal
  | .dateTime moment, right, leftFits, rightFits, afterLeft, afterRight, equal => by
    cases right with
    | dateTime other =>
      simp only [bytes, List.cons_append, List.cons.injEq, true_and] at equal
      rw [Fits] at leftFits rightFits
      obtain ⟨texts, after⟩ :=
        ofText_delimited _ _ (textFits_dateTime moment) (textFits_dateTime other) _ _ equal
      obtain rfl := DateTime.fullText_injective leftFits rightFits texts
      exact ⟨.dateTime moment, after⟩
    | _ => simp [bytes] at equal
  | .money amount currency, right, leftFits, rightFits, afterLeft, afterRight, equal => by
    cases right with
    | money other otherCurrency =>
      simp only [bytes, List.cons_append, List.append_assoc, List.cons.injEq, true_and] at equal
      rw [Fits] at leftFits rightFits
      obtain ⟨same, rest⟩ := Decimal.bytes_delimited _ _ trivial trivial _ _ equal
      obtain ⟨rfl, after⟩ := ofText_delimited _ _ leftFits rightFits _ _ rest
      exact ⟨.money same currency, after⟩
    | _ => simp [bytes] at equal
  | .list items, right, leftFits, rightFits, afterLeft, afterRight, equal => by
    cases right with
    | list others =>
      simp only [bytes, List.cons_append, List.append_assoc, List.cons.injEq, true_and] at equal
      rw [Fits] at leftFits rightFits
      -- The count in front of the elements tells how many there are on both sides.
      obtain ⟨lengths, rest⟩ := ofCount_delimited _ _ leftFits.1 rightFits.1 _ _ equal
      obtain ⟨same, after⟩ :=
        itemBytes_delimited items others lengths leftFits.2 rightFits.2 _ _ rest
      exact ⟨.list same, after⟩
    | _ => simp [bytes] at equal
  | .map entries, right, leftFits, rightFits, afterLeft, afterRight, equal => by
    cases right with
    | map others =>
      simp only [bytes, List.cons_append, List.append_assoc, List.cons.injEq, true_and] at equal
      rw [Fits] at leftFits rightFits
      obtain ⟨lengths, rest⟩ := ofCount_delimited _ _ leftFits.1 rightFits.1 _ _ equal
      obtain ⟨same, after⟩ :=
        entryBytes_delimited entries others lengths leftFits.2 rightFits.2 _ _ rest
      exact ⟨.map same, after⟩
    | _ => simp [bytes] at equal
  | .absent, right, _, _, afterLeft, afterRight, equal => by
    cases right with
    | absent => exact ⟨.absent, by simpa [bytes] using equal⟩
    | _ => simp [bytes] at equal
  | .present inner, right, leftFits, rightFits, afterLeft, afterRight, equal => by
    cases right with
    | present other =>
      simp only [bytes, List.cons_append, List.cons.injEq, true_and] at equal
      rw [Fits] at leftFits rightFits
      obtain ⟨same, after⟩ := bytes_delimited inner other leftFits rightFits _ _ equal
      exact ⟨.present same, after⟩
    | _ => simp [bytes] at equal
  | .entity typeName identity fields, right, leftFits, rightFits, afterLeft, afterRight, equal => by
    cases right with
    | entity otherType otherIdentity others =>
      simp only [bytes, List.cons_append, List.append_assoc, List.cons.injEq, true_and] at equal
      rw [Fits] at leftFits rightFits
      obtain ⟨rfl, afterType⟩ := ofText_delimited _ _ leftFits.1 rightFits.1 _ _ equal
      -- A missing identity has a byte of its own.
      obtain ⟨identities, afterIdentity⟩ :=
        ofText_delimited.ofOption _ _ leftFits.2.1 rightFits.2.1 _ _ afterType
      obtain rfl : identity = otherIdentity := by
        cases identities with
        | none => rfl
        | some same => rw [same]
      obtain ⟨lengths, rest⟩ :=
        ofCount_delimited _ _ leftFits.2.2.1 rightFits.2.2.1 _ _ afterIdentity
      obtain ⟨same, after⟩ :=
        entryBytes_delimited fields others lengths leftFits.2.2.2 rightFits.2.2.2 _ _ rest
      exact ⟨.entity typeName identity same, after⟩
    | _ => simp [bytes] at equal

theorem itemBytes_delimited : ∀ left right : List Value, left.length = right.length →
    ItemsFit left → ItemsFit right → ∀ afterLeft afterRight,
      itemBytes left ++ afterLeft = itemBytes right ++ afterRight →
        SameItems left right ∧ afterLeft = afterRight
  | [], right, lengths, _, _, afterLeft, afterRight, equal => by
    obtain rfl := List.length_eq_zero_iff.mp lengths.symm
    exact ⟨.nil, equal⟩
  | item :: items, [], lengths, _, _, _, _, _ => by simp at lengths
  | item :: items, other :: others, lengths, leftFits, rightFits, afterLeft, afterRight, equal => by
    simp only [itemBytes, List.append_assoc] at equal
    rw [ItemsFit] at leftFits rightFits
    obtain ⟨same, rest⟩ := bytes_delimited item other leftFits.1 rightFits.1 _ _ equal
    obtain ⟨sames, after⟩ := itemBytes_delimited items others (Nat.succ.inj lengths) leftFits.2
      rightFits.2 _ _ rest
    exact ⟨.cons same sames, after⟩

theorem entryBytes_delimited : ∀ left right : List (String × Value), left.length = right.length →
    EntriesFit left → EntriesFit right → ∀ afterLeft afterRight,
      entryBytes left ++ afterLeft = entryBytes right ++ afterRight →
        SameEntries left right ∧ afterLeft = afterRight
  | [], right, lengths, _, _, afterLeft, afterRight, equal => by
    obtain rfl := List.length_eq_zero_iff.mp lengths.symm
    exact ⟨.nil, equal⟩
  | entry :: entries, [], lengths, _, _, _, _, _ => by simp at lengths
  | (name, value) :: entries, (otherName, other) :: others, lengths, leftFits, rightFits,
      afterLeft, afterRight, equal => by
    simp only [entryBytes, List.append_assoc] at equal
    rw [EntriesFit] at leftFits rightFits
    obtain ⟨rfl, afterName⟩ := ofText_delimited _ _ leftFits.1 rightFits.1 _ _ equal
    obtain ⟨same, rest⟩ := bytes_delimited value other leftFits.2.1 rightFits.2.1 _ _ afterName
    obtain ⟨sames, after⟩ := entryBytes_delimited entries others (Nat.succ.inj lengths)
      leftFits.2.2 rightFits.2.2 _ _ rest
    exact ⟨.cons name same sames, after⟩

end

theorem SameItems.length_eq {left right : List Value} :
    SameItems left right → left.length = right.length
  | .nil => rfl
  | .cons _ items => congrArg (· + 1) items.length_eq

theorem SameEntries.length_eq {left right : List (String × Value)} :
    SameEntries left right → left.length = right.length
  | .nil => rfl
  | .cons _ _ entries => congrArg (· + 1) entries.length_eq

mutual

/-- Of a number only the value is written, so what is left out is the number of its zeros. -/
theorem SameContent.bytes_eq {left right : Value} :
    left.SameContent right → left.bytes = right.bytes
  | .null | .bool _ | .text _ | .date _ | .dateTime _ | .absent => rfl
  | .number amount => by rw [bytes, bytes, (Decimal.bytes_eq_iff _ _).mpr amount]
  | .money amount _ => by rw [bytes, bytes, (Decimal.bytes_eq_iff _ _).mpr amount]
  | .list items => by rw [bytes, bytes, items.length_eq, items.itemBytes_eq]
  | .map entries => by rw [bytes, bytes, entries.length_eq, entries.entryBytes_eq]
  | .present inner => by rw [bytes, bytes, inner.bytes_eq]
  | .entity _ _ fields => by rw [bytes, bytes, fields.length_eq, fields.entryBytes_eq]

theorem SameItems.itemBytes_eq {left right : List Value} :
    SameItems left right → itemBytes left = itemBytes right
  | .nil => rfl
  | .cons item items => by rw [itemBytes, itemBytes, item.bytes_eq, items.itemBytes_eq]

theorem SameEntries.entryBytes_eq {left right : List (String × Value)} :
    SameEntries left right → entryBytes left = entryBytes right
  | .nil => rfl
  | .cons _ value entries => by
    rw [entryBytes, entryBytes, value.bytes_eq, entries.entryBytes_eq]

end

end Value

end Rulebook
