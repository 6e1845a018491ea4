import Mathlib.Data.List.Forall2
import Mathlib.Data.Option.Basic
import Mathlib.Data.String.Basic
import Rulebook.Digest.Bytes

/-!
# Delimited codes

A code is delimited if bytes that begin with it tell which value it stands for and where it ends.
Delimited codes can be written one behind another, and lists of them behind their count, without
any ambiguity.
-/
namespace Rulebook.Bytes

/-- The counts that eight bytes hold are those below this one. -/
def countLimit : Nat := 0x1_00000000_00000000

/-- A text whose size eight bytes hold. -/
def TextFits (text : String) : Prop :=
  text.utf8ByteSize < countLimit

instance (text : String) : Decidable (TextFits text) :=
  inferInstanceAs (Decidable (_ < _))

theorem utf8ByteSize_le (text : String) : text.utf8ByteSize ≤ 4 * text.toList.length := by
  rw [← String.utf8Len_toList]
  induction text.toList with
  | nil => simp
  | cons character characters ih =>
    have size := character.utf8Size_le_four
    simp only [String.utf8Len_cons, List.length_cons]
    omega

theorem textFits_of_length {text : String} (short : 4 * text.toList.length < countLimit) :
    TextFits text :=
  Nat.lt_of_le_of_lt (utf8ByteSize_le text) short

/-- Codes of values that fit can be told apart, up to the given likeness, whatever follows them. -/
def Delimited {α : Type} (encode : α → Bytes) (fits : α → Prop) (alike : α → α → Prop) : Prop :=
  ∀ left right, fits left → fits right → ∀ afterLeft afterRight,
    encode left ++ afterLeft = encode right ++ afterRight →
      alike left right ∧ afterLeft = afterRight

/-- A count is told by its bytes if they are enough for it. -/
theorem littleEndian_injective (width left right : Nat) (leftFits : left < 256 ^ width)
    (rightFits : right < 256 ^ width) (equal : littleEndian width left = littleEndian width right) :
    left = right := by
  induction width generalizing left right with
  | zero => omega
  | succ width ih =>
    obtain ⟨low, high⟩ := List.cons.inj equal
    -- The first byte is the last digit to base 256, and the other bytes are the rest.
    have digits : left % 256 = right % 256 := by
      simpa using congrArg UInt8.toNat low
    have rest : left / 256 = right / 256 := by
      apply ih _ _ _ _ high
      · rw [Nat.pow_succ] at leftFits
        omega
      · rw [Nat.pow_succ] at rightFits
        omega
    omega

variable {α : Type} {encode : α → Bytes} {fits : α → Prop} {alike : α → α → Prop}

/-- Codes of one length end where this length ends. -/
theorem delimited_of_length (width : Nat) (fixed : ∀ value, (encode value).length = width)
    (apart : ∀ left right, fits left → fits right → encode left = encode right → alike left right) :
    Delimited encode fits alike := by
  intro left right leftFits rightFits afterLeft afterRight equal
  obtain ⟨same, after⟩ := List.append_inj equal ((fixed left).trans (fixed right).symm)
  exact ⟨apart left right leftFits rightFits same, after⟩

theorem ofCount_delimited : Delimited ofCount (· < countLimit) Eq :=
  delimited_of_length 8 (length_littleEndian 8) (littleEndian_injective 8)

/-- A text is delimited by the count of its bytes in front of it. -/
theorem ofText_delimited : Delimited ofText TextFits Eq := by
  intro left right leftFits rightFits afterLeft afterRight equal
  simp only [ofText, List.append_assoc] at equal
  -- The counts tell how many bytes belong to each text.
  obtain ⟨sizes, rest⟩ := ofCount_delimited _ _ leftFits rightFits _ _ equal
  have lengths : left.toUTF8.data.toList.length = right.toUTF8.data.toList.length := by
    simpa using sizes
  obtain ⟨characters, after⟩ := List.append_inj rest lengths
  have arrays : left.toUTF8 = right.toUTF8 := ByteArray.ext (Array.toList_inj.mp characters)
  exact ⟨String.toByteArray_inj.mp arrays, after⟩

theorem Delimited.ofOption (delimited : Delimited encode fits alike) :
    Delimited (ofOption encode) (fun option => ∀ value ∈ option, fits value)
      (Option.Rel alike) := by
  intro left right leftFits rightFits afterLeft afterRight equal
  cases left with
  | none =>
    cases right with
    | none => exact ⟨.none, by simpa [Bytes.ofOption] using equal⟩
    -- The first byte tells whether a value follows.
    | some value => simp [Bytes.ofOption] at equal
  | some value =>
    cases right with
    | none => simp [Bytes.ofOption] at equal
    | some other =>
      simp only [Bytes.ofOption, List.cons_append, List.cons.injEq, true_and] at equal
      obtain ⟨same, after⟩ :=
        delimited _ _ (leftFits _ rfl) (rightFits _ rfl) _ _ equal
      exact ⟨.some same, after⟩

/-- Lists of one length are told element by element. -/
theorem Delimited.flatMap (delimited : Delimited encode fits alike) (left right : List α)
    (lengths : left.length = right.length) (leftFits : ∀ value ∈ left, fits value)
    (rightFits : ∀ value ∈ right, fits value) (afterLeft afterRight : Bytes)
    (equal : left.flatMap encode ++ afterLeft = right.flatMap encode ++ afterRight) :
    List.Forall₂ alike left right ∧ afterLeft = afterRight := by
  induction left generalizing right with
  | nil =>
    obtain rfl := List.length_eq_zero_iff.mp lengths.symm
    exact ⟨.nil, equal⟩
  | cons value left ih =>
    cases right with
    | nil => simp at lengths
    | cons other right =>
      simp only [List.flatMap_cons, List.append_assoc] at equal
      rw [List.forall_mem_cons] at leftFits rightFits
      obtain ⟨same, tails⟩ := delimited _ _ leftFits.1 rightFits.1 _ _ equal
      obtain ⟨rest, after⟩ :=
        ih right (Nat.succ.inj lengths) leftFits.2 rightFits.2 tails
      exact ⟨.cons same rest, after⟩

/-- The count in front tells the length. -/
theorem Delimited.ofList (delimited : Delimited encode fits alike) :
    Delimited (ofList encode)
      (fun items => items.length < countLimit ∧ ∀ value ∈ items, fits value)
      (List.Forall₂ alike) := by
  intro left right leftFits rightFits afterLeft afterRight equal
  simp only [Bytes.ofList, List.append_assoc] at equal
  obtain ⟨lengths, rest⟩ := ofCount_delimited _ _ leftFits.1 rightFits.1 _ _ equal
  exact delimited.flatMap left right lengths leftFits.2 rightFits.2 _ _ rest

theorem ofOption_eq_of_rel (blind : ∀ left right, alike left right → encode left = encode right)
    {left right : Option α} (same : Option.Rel alike left right) :
    ofOption encode left = ofOption encode right := by
  cases same with
  | none => rfl
  | some values => rw [ofOption, blind _ _ values, ← ofOption]

/-- What the codes do not tell apart has one code. -/
theorem ofList_eq_of_forall₂ (blind : ∀ left right, alike left right → encode left = encode right)
    {left right : List α} (same : List.Forall₂ alike left right) :
    ofList encode left = ofList encode right := by
  have codes : left.flatMap encode = right.flatMap encode := by
    induction same with
    | nil => rfl
    | cons value _ ih => rw [List.flatMap_cons, List.flatMap_cons, blind _ _ value, ih]
  rw [ofList, ofList, same.length_eq, codes]

end Rulebook.Bytes
