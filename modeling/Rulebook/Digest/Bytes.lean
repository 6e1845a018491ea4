/-!
# Bytes

Counts and texts as bytes. A count has a fixed number of bytes, the low one first; the bytes of a
text are counted in front of it, so it can be told where it ends.
-/
namespace Rulebook

abbrev Bytes := List UInt8

namespace Bytes

/-- The low `width` bytes of a count, the lowest first. -/
def littleEndian : (width count : Nat) → Bytes
  | 0, _ => []
  | width + 1, count => UInt8.ofNat count :: littleEndian width (count / 256)

theorem length_littleEndian (width count : Nat) : (littleEndian width count).length = width := by
  induction width generalizing count with
  | zero => rfl
  | succ width ih => simp [littleEndian, ih]

/-- A count in eight bytes. -/
def ofCount (count : Nat) : Bytes :=
  littleEndian 8 count

/-- A text in UTF-8 behind the number of its bytes. -/
def ofText (text : String) : Bytes :=
  ofCount text.utf8ByteSize ++ text.toUTF8.data.toList

/-- Nothing as 0, something behind a 1. -/
def ofOption {α : Type} (encode : α → Bytes) : Option α → Bytes
  | none => [0]
  | some value => 1 :: encode value

/-- A list behind the number of its elements. -/
def ofList {α : Type} (encode : α → Bytes) (items : List α) : Bytes :=
  ofCount items.length ++ items.flatMap encode

/-- The lower-case hexadecimal digits of the bytes, two for each. -/
def hex (bytes : Bytes) : String :=
  String.ofList (bytes.flatMap fun byte =>
    [Nat.digitChar (byte.toNat / 16), Nat.digitChar (byte.toNat % 16)])

end Bytes

end Rulebook
