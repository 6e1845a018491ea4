import Rulebook.Text.Blank

/-!
# Attribute paths

A path names an attribute from a name at the root through properties, list positions and quoted
keys, such as `policy.coverages[1]['limit']`. Blanks at its ends are ignored; inside a path every
character counts.
-/
namespace Rulebook

/-- One step of a path. -/
inductive PathStep where
  | property (name : String)
  | index (position : Nat)
  | key (name : String)
deriving DecidableEq, Repr

/-- The written form of a step; keys stand between single quotes. -/
def PathStep.text : PathStep → String
  | .property name => "." ++ name
  | .index position => "[" ++ toString position ++ "]"
  | .key name => "['" ++ name ++ "']"

/-- The grammars that texts are parsed by. -/
inductive Grammar where
  | path
  | template
deriving DecidableEq, Repr

/-- Why a text is refused: its grammar does not derive it, or its steps navigate nowhere. -/
inductive PathFault where
  | unparsed (grammar : Grammar)
  | unexpected (step : PathStep)
  | empty
deriving DecidableEq, Repr

/-- A text that is no path, or no template. -/
structure PathError where
  input : String
  fault : PathFault
deriving DecidableEq, Repr

/-- What the parser library tells about a text that a grammar does not derive. -/
abbrev Explanation := Grammar → String → String

/-- The library gets a path without the blanks around it, and a template as it is. -/
def PathError.reason (explain : Explanation) (error : PathError) : String :=
  match error.fault with
  | .unparsed .path => explain .path (String.ofList (trimChars error.input.toList))
  | .unparsed .template => explain .template error.input
  | .unexpected step => "unexpected " ++ step.text
  | .empty => "empty path"

def PathError.message (explain : Explanation) (error : PathError) : String :=
  "invalid path '" ++ error.input ++ "': " ++ error.reason explain

namespace Path

def isNameStart (character : Char) : Bool :=
  character.isAlpha || character == '_'

def isNameChar (character : Char) : Bool :=
  character.isAlphanum || character == '_'

/-- Splits a name off the front. -/
def readName : List Char → Option (String × List Char)
  | [] => none
  | character :: rest =>
    if isNameStart character then
      some (String.ofList (character :: rest.takeWhile isNameChar), rest.dropWhile isNameChar)
    else none

/-- The count that digits denote. -/
def countOf (digits : List Char) : Nat :=
  digits.foldl (fun total digit => total * 10 + (digit.toNat - '0'.toNat)) 0

/-- Splits a position off the front: digits without a leading zero, or a zero alone, within 64
bits. -/
def readPosition : List Char → Option (Nat × List Char)
  | [] => none
  | character :: rest =>
    -- After a zero no digit can follow, since a bracket has to close here.
    if character = '0' then some (0, rest)
    else
      let digits := (character :: rest).takeWhile Char.isDigit
      if digits.isEmpty then none
      else if countOf digits < 0x1_00000000_00000000 then
        some (countOf digits, (character :: rest).dropWhile Char.isDigit)
      else none

/-- Splits a key off the front, after its opening quote; it runs to the next such quote. -/
def readKey (quote : Char) (characters : List Char) : Option (String × List Char) :=
  match characters.dropWhile (· != quote) with
  | [] => none
  | _ :: rest => some (String.ofList (characters.takeWhile (· != quote)), rest)

/-- Reads what stands in brackets, up to the closing one. -/
def readBracket (characters : List Char) : Option (PathStep × List Char) :=
  let content := match characters with
    | '\'' :: rest => (readKey '\'' rest).map fun (name, rest) => (PathStep.key name, rest)
    | '"' :: rest => (readKey '"' rest).map fun (name, rest) => (PathStep.key name, rest)
    | _ => (readPosition characters).map fun (position, rest) => (.index position, rest)
  match content with
  | some (step, ']' :: rest) => some (step, rest)
  | _ => none

/-- Splits a step off the front. -/
def readStep : List Char → Option (PathStep × List Char)
  | '.' :: rest => (readName rest).map fun (name, rest) => (.property name, rest)
  | '[' :: rest => readBracket rest
  | _ => none

theorem dropWhile_length_le (holds : Char → Bool) (characters : List Char) :
    (characters.dropWhile holds).length ≤ characters.length :=
  (List.dropWhile_suffix holds).length_le

theorem readName_length {characters rest : List Char} {name : String}
    (read : readName characters = some (name, rest)) : rest.length < characters.length := by
  cases characters with
  | nil => simp [readName] at read
  | cons character tail =>
    simp only [readName] at read
    split at read
    · simp only [Option.some.injEq, Prod.mk.injEq] at read
      have := dropWhile_length_le isNameChar tail
      simp only [← read.2, List.length_cons]
      omega
    · simp at read

theorem readPosition_length {characters rest : List Char} {position : Nat}
    (read : readPosition characters = some (position, rest)) :
    rest.length ≤ characters.length := by
  cases characters with
  | nil => simp [readPosition] at read
  | cons character tail =>
    simp only [readPosition] at read
    split at read
    · simp only [Option.some.injEq, Prod.mk.injEq] at read
      simp [← read.2]
    · split at read
      · simp at read
      · split at read
        · simp only [Option.some.injEq, Prod.mk.injEq] at read
          exact read.2 ▸ dropWhile_length_le _ _
        · simp at read

theorem readKey_length {quote : Char} {characters rest : List Char} {name : String}
    (read : readKey quote characters = some (name, rest)) : rest.length ≤ characters.length := by
  have bound := dropWhile_length_le (· != quote) characters
  simp only [readKey] at read
  split at read
  · simp at read
  · next equal =>
    simp only [Option.some.injEq, Prod.mk.injEq] at read
    rw [equal] at bound
    simp only [← read.2, List.length_cons] at bound ⊢
    omega

theorem readBracket_length {characters rest : List Char} {step : PathStep}
    (read : readBracket characters = some (step, rest)) : rest.length < characters.length := by
  simp only [readBracket] at read
  split at read
  · next content inner equal =>
    simp only [Option.some.injEq, Prod.mk.injEq] at read
    rw [← read.2]
    split at equal
    · simp only [Option.map_eq_some_iff, Prod.mk.injEq, Prod.exists] at equal
      obtain ⟨name, tail, found, _, rfl⟩ := equal
      have := readKey_length found
      simp only [List.length_cons] at *
      omega
    · simp only [Option.map_eq_some_iff, Prod.mk.injEq, Prod.exists] at equal
      obtain ⟨name, tail, found, _, rfl⟩ := equal
      have := readKey_length found
      simp only [List.length_cons] at *
      omega
    · simp only [Option.map_eq_some_iff, Prod.mk.injEq, Prod.exists] at equal
      obtain ⟨position, tail, found, _, rfl⟩ := equal
      have := readPosition_length found
      simp only [List.length_cons] at *
      omega
  · simp at read

/-- A step takes at least one character. -/
theorem readStep_length {characters rest : List Char} {step : PathStep}
    (read : readStep characters = some (step, rest)) :
    rest.length < characters.length := by
  unfold readStep at read
  split at read
  · simp only [Option.map_eq_some_iff, Prod.mk.injEq, Prod.exists] at read
    obtain ⟨name, tail, found, _, rfl⟩ := read
    have := readName_length found
    simp only [List.length_cons]
    omega
  · have := readBracket_length read
    simp only [List.length_cons]
    omega
  · simp at read

/-- Reads steps up to the end. -/
def readSteps (characters : List Char) : Option (List PathStep) :=
  match characters with
  | [] => some []
  | character :: tail =>
    match _read : readStep (character :: tail) with
    | none => none
    | some (step, rest) => (readSteps rest).map (step :: ·)
termination_by characters.length
decreasing_by exact readStep_length (by assumption)

/-- Reads a path without blanks around it. -/
def ofChars? (characters : List Char) : Option (List PathStep) := do
  let (name, rest) ← readName characters
  return .property name :: (← readSteps rest)

end Path

/-- Reads the steps of a path. -/
def readPath (input : String) : Except PathError (List PathStep) :=
  match Path.ofChars? (trimChars input.toList) with
  | some steps => .ok steps
  | none => .error ⟨input, .unparsed .path⟩

/-- A path starts with a name. -/
theorem exists_root_of_readPath {input : String} {steps : List PathStep}
    (read : readPath input = .ok steps) : ∃ root rest, steps = .property root :: rest := by
  unfold readPath Path.ofChars? at read
  cases named : Path.readName (trimChars input.toList) with
  | none => simp [named] at read
  | some found =>
    obtain ⟨root, characters⟩ := found
    cases further : Path.readSteps characters with
    | none => simp [named, further] at read
    | some rest =>
      simp only [named, further, Option.bind_eq_bind, Option.bind_some, Option.pure_def,
        Except.ok.injEq] at read
      exact ⟨root, rest, read.symm⟩

/-- The written forms of the steps one after another. -/
def pathText (steps : List PathStep) : String :=
  String.join (steps.map PathStep.text)

end Rulebook
