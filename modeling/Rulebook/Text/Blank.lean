/-!
# Blank characters

The characters with the Unicode property White_Space, and trimming of a text by them.
-/
namespace Rulebook

/-- The code points with the property White_Space. -/
def blankCodes : List Nat :=
  [0x9, 0xa, 0xb, 0xc, 0xd, 0x20, 0x85, 0xa0, 0x1680, 0x2000, 0x2001, 0x2002, 0x2003, 0x2004,
    0x2005, 0x2006, 0x2007, 0x2008, 0x2009, 0x200a, 0x2028, 0x2029, 0x202f, 0x205f, 0x3000]

def isBlank (character : Char) : Bool :=
  blankCodes.contains character.toNat

/-- No visible ASCII character is blank. -/
theorem not_isBlank_of_visible {character : Char} (first : '!'.toNat ≤ character.toNat)
    (last : character.toNat ≤ '~'.toNat) : isBlank character = false := by
  have : '!'.toNat = 33 := rfl
  have : '~'.toNat = 126 := rfl
  simp only [isBlank, blankCodes, List.contains_eq_mem, List.mem_cons, List.not_mem_nil, or_false,
    decide_eq_false_iff_not]
  omega

/-- Drops the blanks at the front. -/
def trimFront (characters : List Char) : List Char :=
  characters.dropWhile isBlank

/-- Drops the blanks at the back. -/
def trimBack (characters : List Char) : List Char :=
  (characters.reverse.dropWhile isBlank).reverse

/-- Drops the blanks at both ends. -/
def trimChars (characters : List Char) : List Char :=
  trimBack (trimFront characters)

theorem trimFront_eq_self {characters : List Char}
    (solid : ∀ character ∈ characters, isBlank character = false) :
    trimFront characters = characters := by
  cases characters with
  | nil => rfl
  | cons first rest => exact List.dropWhile_cons_of_neg (by simp [solid first List.mem_cons_self])

/-- Without blanks there is nothing to drop. -/
theorem trimChars_eq_self {characters : List Char}
    (solid : ∀ character ∈ characters, isBlank character = false) :
    trimChars characters = characters := by
  have reversed : trimFront characters.reverse = characters.reverse :=
    trimFront_eq_self fun character member => solid character (List.mem_reverse.mp member)
  rw [trimChars, trimFront_eq_self solid, trimBack, ← trimFront, reversed, List.reverse_reverse]

/-- The text without the blanks at its ends. -/
def trimText (text : String) : String :=
  String.ofList (trimChars text.toList)

end Rulebook
