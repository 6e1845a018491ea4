import Rulebook.Path.Basic
import Mathlib.Data.List.TakeWhile

/-!
# The grammar of attribute paths

The grammar as derivation trees. A tree carries its side conditions, given by ranges of characters
and by the core library's value of a decimal numeral, so that no tree is malformed and none of them
mentions a reader.

The reader of paths accepts exactly the texts that a derivation spells between blanks, with the
steps that the derivation denotes, and a text has one derivation at most. For each kind of phrase
there are two lemmas: the reader takes the phrase off the front of a text, provided that the text
behind does not continue it, and whatever the reader takes off is such a phrase.
-/
namespace Rulebook.Path

/-! ### Derivations -/

/-- A letter of a name; the underscore is one. -/
def IsLetter (character : Char) : Prop :=
  ('A' ≤ character ∧ character ≤ 'Z') ∨ ('a' ≤ character ∧ character ≤ 'z') ∨ character = '_'

def IsDigit (character : Char) : Prop :=
  '0' ≤ character ∧ character ≤ '9'

instance (character : Char) : Decidable (IsLetter character) :=
  inferInstanceAs (Decidable (_ ∨ _))

instance (character : Char) : Decidable (IsDigit character) :=
  inferInstanceAs (Decidable (_ ∧ _))

/-- A letter and then letters and digits. -/
@[ext]
structure Name where
  first : Char
  rest : List Char
  first_letter : IsLetter first
  rest_letter_or_digit : ∀ character ∈ rest, IsLetter character ∨ IsDigit character

def Name.chars (name : Name) : List Char :=
  name.first :: name.rest

/-- A decimal numeral without a leading zero whose value has at most 64 bits. -/
@[ext]
structure Numeral where
  first : Char
  rest : List Char
  first_digit : IsDigit first
  rest_digit : ∀ character ∈ rest, IsDigit character
  alone_of_zero : first = '0' → rest = []
  fits : Nat.ofDigitChars 10 (first :: rest) 0 < 0x1_00000000_00000000

def Numeral.chars (numeral : Numeral) : List Char :=
  numeral.first :: numeral.rest

def Numeral.value (numeral : Numeral) : Nat :=
  Nat.ofDigitChars 10 numeral.chars 0

inductive Quote where
  | single
  | double
deriving DecidableEq

def Quote.char : Quote → Char
  | .single => '\''
  | .double => '"'

/-- Any characters but the quote between two quotes. -/
@[ext]
structure QuotedKey where
  quote : Quote
  content : List Char
  unquoted : quote.char ∉ content

def QuotedKey.chars (quoted : QuotedKey) : List Char :=
  quoted.quote.char :: (quoted.content ++ [quoted.quote.char])

/-- What may follow the name at the root. -/
inductive Segment where
  | property (name : Name)
  | index (numeral : Numeral)
  | key (quoted : QuotedKey)

def Segment.chars : Segment → List Char
  | .property name => '.' :: name.chars
  | .index numeral => '[' :: (numeral.chars ++ [']'])
  | .key quoted => '[' :: (quoted.chars ++ [']'])

def Segment.step : Segment → PathStep
  | .property name => .property (String.ofList name.chars)
  | .index numeral => .index numeral.value
  | .key quoted => .key (String.ofList quoted.content)

@[ext]
structure Derivation where
  root : Name
  segments : List Segment

namespace Derivation

def chars (derivation : Derivation) : List Char :=
  derivation.root.chars ++ derivation.segments.flatMap Segment.chars

def steps (derivation : Derivation) : List PathStep :=
  .property (String.ofList derivation.root.chars) :: derivation.segments.map Segment.step

/-- The text is what the derivation spells, with blanks before and behind. -/
def Spells (derivation : Derivation) (input : String) : Prop :=
  ∃ leading trailing, (∀ character ∈ leading, isBlank character = true) ∧
    (∀ character ∈ trailing, isBlank character = true) ∧
    input.toList = leading ++ derivation.chars ++ trailing

end Derivation

/-! ### Classes of characters -/

theorem isDigit_iff (character : Char) : character.isDigit = true ↔ IsDigit character :=
  Bool.and_eq_true_iff.trans (and_congr decide_eq_true_iff decide_eq_true_iff)

theorem isUpper_iff (character : Char) :
    character.isUpper = true ↔ 'A' ≤ character ∧ character ≤ 'Z' :=
  decide_eq_true_iff

theorem isLower_iff (character : Char) :
    character.isLower = true ↔ 'a' ≤ character ∧ character ≤ 'z' :=
  Bool.and_eq_true_iff.trans (and_congr decide_eq_true_iff decide_eq_true_iff)

theorem isAlpha_iff (character : Char) :
    character.isAlpha = true ↔ character.isUpper = true ∨ character.isLower = true :=
  Bool.or_eq_true_iff

theorem isNameStart_iff (character : Char) :
    isNameStart character = true ↔ IsLetter character := by
  simp only [isNameStart, IsLetter, Bool.or_eq_true, beq_iff_eq, isAlpha_iff, isUpper_iff,
    isLower_iff, or_assoc]

/-- Names are made of letters and digits only. -/
theorem isNameChar_iff (character : Char) :
    isNameChar character = true ↔ IsLetter character ∨ IsDigit character := by
  rw [← isNameStart_iff, ← isDigit_iff]
  simp [isNameChar, isNameStart, Char.isAlphanum, or_right_comm]

/-- The letters and digits lie between the codes 48 and 122, where nothing is blank. -/
theorem not_isBlank_of_isNameChar {character : Char} (named : isNameChar character = true) :
    isBlank character = false := by
  have codes : 48 ≤ character.toNat ∧ character.toNat ≤ 122 := by
    rw [isNameChar_iff] at named
    simp only [IsLetter, IsDigit, Char.le_def, UInt32.le_iff_toNat_le] at named
    have : 'A'.val.toNat = 65 := rfl
    have : 'Z'.val.toNat = 90 := rfl
    have : 'a'.val.toNat = 97 := rfl
    have : 'z'.val.toNat = 122 := rfl
    have : '0'.val.toNat = 48 := rfl
    have : '9'.val.toNat = 57 := rfl
    have : character.toNat = character.val.toNat := rfl
    rcases named with (range | range | rfl) | range
    · omega
    · omega
    · decide
    · omega
  exact not_isBlank_of_visible (Nat.le_trans (by decide) codes.1) (Nat.le_trans codes.2 (by decide))

/-! ### Runs of characters of one class -/

/-- The text does not begin with a character of the class. -/
def Stops (holds : Char → Bool) (characters : List Char) : Prop :=
  ∀ character ∈ characters.head?, holds character = false

section Runs

variable {holds : Char → Bool} {front rest : List Char}

theorem stops_nil : Stops holds [] := by
  simp [Stops]

theorem stops_cons {character : Char} :
    Stops holds (character :: rest) ↔ holds character = false := by
  simp [Stops]

theorem Stops.append (first : Stops holds front) (second : Stops holds rest) :
    Stops holds (front ++ rest) := by
  cases front with
  | nil => exact second
  | cons character tail => exact first

theorem stops_dropWhile (holds : Char → Bool) (characters : List Char) :
    Stops holds (characters.dropWhile holds) := by
  intro character member
  have outside := List.head?_dropWhile_not holds characters
  rw [Option.mem_def.mp member] at outside
  simpa using outside

theorem takeWhile_append_of_stops (inside : ∀ character ∈ front, holds character = true)
    (stops : Stops holds rest) : (front ++ rest).takeWhile holds = front := by
  rw [List.takeWhile_append_of_pos inside]
  cases rest with
  | nil => simp
  | cons character tail => simp [stops_cons.mp stops]

theorem dropWhile_append_of_stops (inside : ∀ character ∈ front, holds character = true)
    (stops : Stops holds rest) : (front ++ rest).dropWhile holds = rest := by
  rw [List.dropWhile_append_of_pos inside]
  cases rest with
  | nil => rfl
  | cons character tail => simp [stops_cons.mp stops]

/-- A text splits in one way into a run and what stops it. -/
theorem append_inj_of_stops {front' rest' : List Char}
    (inside : ∀ character ∈ front, holds character = true) (stops : Stops holds rest)
    (inside' : ∀ character ∈ front', holds character = true) (stops' : Stops holds rest')
    (equal : front ++ rest = front' ++ rest') : front = front' ∧ rest = rest' := by
  constructor
  · rw [← takeWhile_append_of_stops inside stops, equal, takeWhile_append_of_stops inside' stops']
  · rw [← dropWhile_append_of_stops inside stops, equal, dropWhile_append_of_stops inside' stops']

end Runs

/-! ### Names -/

theorem Name.isNameChar_of_mem (name : Name) {character : Char} (member : character ∈ name.chars) :
    isNameChar character = true := by
  rw [isNameChar_iff]
  rcases List.mem_cons.mp member with rfl | member
  · exact .inl name.first_letter
  · exact name.rest_letter_or_digit character member

/-- The reader takes a name off the front. -/
theorem readName_chars (name : Name) {rest : List Char} (stops : Stops isNameChar rest) :
    readName (name.chars ++ rest) = some (String.ofList name.chars, rest) := by
  have started := (isNameStart_iff name.first).mpr name.first_letter
  have named : ∀ character ∈ name.rest, isNameChar character = true :=
    fun character member => name.isNameChar_of_mem (List.mem_cons_of_mem _ member)
  simp only [Name.chars, List.cons_append, readName, started, if_true,
    takeWhile_append_of_stops named stops, dropWhile_append_of_stops named stops]

/-- And whatever it takes is a name. -/
theorem exists_name_of_readName {characters rest : List Char} {text : String}
    (read : readName characters = some (text, rest)) :
    ∃ name : Name, characters = name.chars ++ rest ∧ text = String.ofList name.chars := by
  cases characters with
  | nil => simp [readName] at read
  | cons first tail =>
    by_cases started : isNameStart first = true
    · simp only [readName, started, if_true, Option.some.injEq, Prod.mk.injEq] at read
      obtain ⟨rfl, rfl⟩ := read
      refine ⟨⟨first, tail.takeWhile isNameChar, (isNameStart_iff first).mp started,
        fun character member => (isNameChar_iff character).mp (List.mem_takeWhile_imp member)⟩,
        ?_, rfl⟩
      simp [Name.chars]
    · simp [readName, started] at read

/-! ### Numerals -/

theorem countOf_eq (digits : List Char) : countOf digits = Nat.ofDigitChars 10 digits 0 := by
  simp only [countOf, Nat.ofDigitChars, Nat.mul_comm]

theorem Numeral.isDigit_of_mem (numeral : Numeral) {character : Char}
    (member : character ∈ numeral.chars) : character.isDigit = true := by
  rw [isDigit_iff]
  rcases List.mem_cons.mp member with rfl | member
  · exact numeral.first_digit
  · exact numeral.rest_digit character member

/-- The reader takes a numeral off the front, unless another digit follows. -/
theorem readPosition_chars (numeral : Numeral) {rest : List Char}
    (stops : Stops Char.isDigit rest) :
    readPosition (numeral.chars ++ rest) = some (numeral.value, rest) := by
  have digits : ∀ character ∈ numeral.chars, character.isDigit = true :=
    fun _ => numeral.isDigit_of_mem
  -- The reader stops behind a zero in front, and there no numeral goes on.
  by_cases zero : numeral.first = '0'
  · have alone : numeral.chars = ['0'] := by
      simp only [Numeral.chars, zero, numeral.alone_of_zero zero]
    simp [Numeral.value, alone, readPosition, Nat.ofDigitChars]
  · have taken := takeWhile_append_of_stops digits stops
    have left := dropWhile_append_of_stops digits stops
    have value : countOf numeral.chars = numeral.value := countOf_eq numeral.chars
    have fits : numeral.value < 0x1_00000000_00000000 := numeral.fits
    simp only [Numeral.chars, List.cons_append] at taken left value ⊢
    simp only [readPosition, if_neg zero, taken, left, value, List.isEmpty_cons,
      Bool.false_eq_true, if_false]
    exact if_pos fits

theorem exists_numeral_of_readPosition {characters rest : List Char} {position : Nat}
    (read : readPosition characters = some (position, rest)) :
    ∃ numeral : Numeral, characters = numeral.chars ++ rest ∧ position = numeral.value := by
  cases characters with
  | nil => simp [readPosition] at read
  | cons first tail =>
    -- A zero is taken alone, any other digit with those that follow it.
    by_cases zero : first = '0'
    · simp only [readPosition, if_pos zero, Option.some.injEq, Prod.mk.injEq] at read
      obtain ⟨rfl, rfl⟩ := read
      exact ⟨⟨'0', [], by decide, by simp, fun _ => rfl, by decide⟩, by simp [Numeral.chars, zero],
        rfl⟩
    · by_cases digit : first.isDigit = true
      · have taken : (first :: tail).takeWhile Char.isDigit =
            first :: tail.takeWhile Char.isDigit := List.takeWhile_cons_of_pos digit
        have left : (first :: tail).dropWhile Char.isDigit = tail.dropWhile Char.isDigit :=
          List.dropWhile_cons_of_pos digit
        simp only [readPosition, if_neg zero, taken, left, List.isEmpty_cons, Bool.false_eq_true,
          if_false, Option.ite_none_right_eq_some, Option.some.injEq, Prod.mk.injEq,
          countOf_eq] at read
        obtain ⟨fits, rfl, rfl⟩ := read
        refine ⟨⟨first, tail.takeWhile Char.isDigit, (isDigit_iff first).mp digit,
          fun character member => (isDigit_iff character).mp (List.mem_takeWhile_imp member),
          fun equal => absurd equal zero, fits⟩, ?_, rfl⟩
        simp [Numeral.chars]
      · simp [readPosition, zero, digit] at read

/-! ### Quoted keys -/

theorem bne_of_mem {quote : Char} {content : List Char} (unquoted : quote ∉ content) :
    ∀ character ∈ content, (character != quote) = true := by
  intro character member
  simpa using ne_of_mem_of_not_mem member unquoted

theorem stops_quote (quote : Char) (rest : List Char) : Stops (· != quote) (quote :: rest) := by
  simp [stops_cons]

/-- The reader takes a key off the front up to the closing quote. -/
theorem readKey_content (quoted : QuotedKey) (rest : List Char) :
    readKey quoted.quote.char (quoted.content ++ quoted.quote.char :: rest) =
      some (String.ofList quoted.content, rest) := by
  have inside := bne_of_mem quoted.unquoted
  have stops := stops_quote quoted.quote.char rest
  simp only [readKey, takeWhile_append_of_stops inside stops,
    dropWhile_append_of_stops inside stops]

theorem exists_key_of_readKey {quote : Quote} {characters rest : List Char} {text : String}
    (read : readKey quote.char characters = some (text, rest)) :
    ∃ quoted : QuotedKey, quote.char :: characters = quoted.chars ++ rest ∧
      text = String.ofList quoted.content := by
  have stops := stops_dropWhile (· != quote.char) characters
  have split : characters.takeWhile (· != quote.char) ++ characters.dropWhile (· != quote.char) =
      characters := List.takeWhile_append_dropWhile
  unfold readKey at read
  cases left : characters.dropWhile (· != quote.char) with
  | nil => simp [left] at read
  | cons character tail =>
    simp only [left, Option.some.injEq, Prod.mk.injEq] at read
    obtain ⟨rfl, rfl⟩ := read
    rw [left] at stops split
    -- What is not the quote was taken, so the character that is left is the quote.
    obtain rfl : character = quote.char := by simpa using stops_cons.mp stops
    refine ⟨⟨quote, characters.takeWhile (· != quote.char), ?_⟩, ?_, rfl⟩
    · intro member
      simpa using List.mem_takeWhile_imp member
    · simp [QuotedKey.chars, split]

/-! ### Segments -/

theorem Numeral.first_ne_quote (numeral : Numeral) (quote : Quote) :
    numeral.first ≠ quote.char := by
  intro equal
  have digit := numeral.first_digit
  rw [equal] at digit
  cases quote <;> exact absurd digit (by decide)

/-- What is read in brackets makes a step if the closing one follows. -/
theorem closed_eq_some_iff {α : Type} (make : α → PathStep) (content : Option (α × List Char))
    {rest : List Char} {step : PathStep} :
    (match content.map fun (part, rest) => (make part, rest) with
      | some (step, ']' :: rest) => some (step, rest)
      | _ => none) = some (step, rest) ↔
      ∃ part, content = some (part, ']' :: rest) ∧ step = make part := by
  rcases content with _ | ⟨part, _ | ⟨character, tail⟩⟩
  · simp
  · simp
  · by_cases closing : character = ']'
    · subst closing
      simp only [Option.map_some, Option.some.injEq, Prod.mk.injEq, List.cons.injEq, true_and]
      constructor
      · rintro ⟨rfl, rfl⟩
        exact ⟨part, ⟨rfl, rfl⟩, rfl⟩
      · rintro ⟨_, ⟨rfl, rfl⟩, rfl⟩
        exact ⟨rfl, rfl⟩
    · simp [closing]

theorem readBracket_quote (quote : Quote) {tail rest : List Char} {step : PathStep} :
    readBracket (quote.char :: tail) = some (step, rest) ↔
      ∃ name, readKey quote.char tail = some (name, ']' :: rest) ∧ step = .key name := by
  cases quote <;> exact closed_eq_some_iff .key _

theorem readBracket_of_unquoted {characters rest : List Char} {step : PathStep}
    (unquoted : ∀ quote tail, characters ≠ Quote.char quote :: tail) :
    readBracket characters = some (step, rest) ↔
      ∃ position, readPosition characters = some (position, ']' :: rest) ∧
        step = .index position := by
  unfold readBracket
  split
  · exact absurd rfl (unquoted .single _)
  · exact absurd rfl (unquoted .double _)
  · exact closed_eq_some_iff .index _

theorem stops_closing (rest : List Char) : Stops Char.isDigit (']' :: rest) :=
  stops_cons.mpr (by decide)

/-- The reader takes a segment off the front. -/
theorem readStep_chars (segment : Segment) {rest : List Char} (stops : Stops isNameChar rest) :
    readStep (segment.chars ++ rest) = some (segment.step, rest) := by
  cases segment with
  | property name =>
    simp only [Segment.chars, List.cons_append, readStep, readName_chars name stops,
      Option.map_some, Segment.step]
  | index numeral =>
    have read := readPosition_chars numeral (stops_closing rest)
    simp only [Segment.chars, List.cons_append, List.append_assoc, List.nil_append, readStep]
    -- A key is not even tried, since a digit is no quote.
    refine (readBracket_of_unquoted fun quote tail equal => ?_).mpr ⟨_, read, rfl⟩
    exact numeral.first_ne_quote quote (List.cons.inj equal).1
  | key quoted =>
    have read := readKey_content quoted (']' :: rest)
    simp only [Segment.chars, QuotedKey.chars, List.cons_append, List.append_assoc, List.nil_append,
      readStep]
    exact (readBracket_quote quoted.quote).mpr ⟨_, read, rfl⟩

theorem exists_segment_of_readStep {characters rest : List Char} {step : PathStep}
    (read : readStep characters = some (step, rest)) :
    ∃ segment : Segment, characters = segment.chars ++ rest ∧ step = segment.step := by
  unfold readStep at read
  split at read
  · next tail =>
    simp only [Option.map_eq_some_iff, Prod.mk.injEq, Prod.exists] at read
    obtain ⟨text, behind, found, rfl, rfl⟩ := read
    obtain ⟨name, rfl, rfl⟩ := exists_name_of_readName found
    exact ⟨.property name, rfl, rfl⟩
  · next tail =>
    -- A quote makes a key, anything else has to be a position.
    by_cases quoting : ∃ quote behind, tail = Quote.char quote :: behind
    · obtain ⟨quote, behind, rfl⟩ := quoting
      obtain ⟨text, found, rfl⟩ := (readBracket_quote quote).mp read
      obtain ⟨quoted, equal, rfl⟩ := exists_key_of_readKey found
      exact ⟨.key quoted, by simp [Segment.chars, equal], rfl⟩
    · obtain ⟨position, found, rfl⟩ := (readBracket_of_unquoted (by simpa using quoting)).mp read
      obtain ⟨numeral, rfl, rfl⟩ := exists_numeral_of_readPosition found
      exact ⟨.index numeral, by simp [Segment.chars], rfl⟩
  · simp at read

/-- A segment begins with a dot or a bracket, and so ends the name before it. -/
theorem stops_segments (segments : List Segment) :
    Stops isNameChar (segments.flatMap Segment.chars) := by
  cases segments with
  | nil => exact stops_nil
  | cons segment rest => cases segment <;> exact stops_cons.mpr (by decide)

theorem readSteps_cons (character : Char) (tail : List Char) :
    readSteps (character :: tail) = (readStep (character :: tail)).bind fun found =>
      (readSteps found.2).map (found.1 :: ·) := by
  rw [readSteps]
  cases readStep (character :: tail) <;> rfl

theorem Segment.exists_chars_eq_cons (segment : Segment) :
    ∃ character tail, segment.chars = character :: tail := by
  cases segment <;> exact ⟨_, _, rfl⟩

theorem readSteps_chars (segments : List Segment) :
    readSteps (segments.flatMap Segment.chars) = some (segments.map Segment.step) := by
  induction segments with
  | nil => simp [readSteps]
  | cons segment rest ih =>
    have read := readStep_chars segment (stops_segments rest)
    -- The reader ends at an empty text only, and a segment is never empty.
    obtain ⟨character, tail, equal⟩ := segment.exists_chars_eq_cons
    rw [equal, List.cons_append] at read
    simp only [List.flatMap_cons, equal, List.cons_append, readSteps_cons, read, Option.bind_some,
      ih, Option.map_some, List.map_cons]

/-- What is read as steps is made of segments. -/
theorem exists_segments_of_readSteps {characters : List Char} {steps : List PathStep}
    (read : readSteps characters = some steps) :
    ∃ segments : List Segment, characters = segments.flatMap Segment.chars ∧
      steps = segments.map Segment.step := by
  induction characters using readSteps.induct generalizing steps with
  | case1 =>
    simp only [readSteps, Option.some.injEq] at read
    exact ⟨[], rfl, read.symm⟩
  | case2 character tail unread =>
    simp [readSteps_cons, unread] at read
  | case3 character tail step rest found ih =>
    simp only [readSteps_cons, found, Option.bind_some, Option.map_eq_some_iff] at read
    obtain ⟨further, read, rfl⟩ := read
    -- The first step is a segment, and the induction gives the others.
    obtain ⟨segment, equal, rfl⟩ := exists_segment_of_readStep found
    obtain ⟨segments, rfl, rfl⟩ := ih read
    exact ⟨segment :: segments, equal, rfl⟩

/-! ### Paths -/

/-- Without blanks around it a text is a path exactly if a derivation has its characters. -/
theorem ofChars?_eq_some_iff {characters : List Char} {steps : List PathStep} :
    ofChars? characters = some steps ↔
      ∃ derivation : Derivation, derivation.chars = characters ∧ derivation.steps = steps := by
  constructor
  · intro read
    simp only [ofChars?, Option.bind_eq_bind, Option.bind_eq_some_iff, Option.pure_def,
      Option.some.injEq, Prod.exists] at read
    obtain ⟨text, rest, named, further, stepped, rfl⟩ := read
    -- The reader takes a name and then steps, as a derivation is made.
    obtain ⟨root, rfl, rfl⟩ := exists_name_of_readName named
    obtain ⟨segments, rfl, rfl⟩ := exists_segments_of_readSteps stepped
    exact ⟨⟨root, segments⟩, rfl, rfl⟩
  · rintro ⟨derivation, rfl, rfl⟩
    have named := readName_chars derivation.root (stops_segments derivation.segments)
    simp only [ofChars?, Derivation.chars, named, readSteps_chars, Option.bind_eq_bind,
      Option.bind_some, Option.pure_def, Derivation.steps]

/-! ### Blanks around a path -/

/-- A text is its trimmed form with blanks before and behind. -/
theorem exists_eq_append_trimChars (characters : List Char) :
    ∃ leading trailing, (∀ character ∈ leading, isBlank character = true) ∧
      (∀ character ∈ trailing, isBlank character = true) ∧
      characters = leading ++ trimChars characters ++ trailing := by
  refine ⟨characters.takeWhile isBlank, ((trimFront characters).reverse.takeWhile isBlank).reverse,
    fun _ => List.mem_takeWhile_imp, fun _ member => List.mem_takeWhile_imp
      (List.mem_reverse.mp member), ?_⟩
  rw [trimChars, trimBack, List.append_assoc, ← List.reverse_append,
    List.takeWhile_append_dropWhile, List.reverse_reverse, trimFront,
    List.takeWhile_append_dropWhile]

/-- Trimming finds what stands between blanks if it neither begins nor ends with one. -/
theorem trimChars_append {leading inner trailing : List Char} (some_inner : inner ≠ [])
    (blank : ∀ character ∈ leading, isBlank character = true)
    (blank' : ∀ character ∈ trailing, isBlank character = true)
    (begins : Stops isBlank inner) (ends : Stops isBlank inner.reverse) :
    trimChars (leading ++ inner ++ trailing) = inner := by
  -- The blanks in front end where the inner text begins, whatever stands behind it.
  have behind : Stops isBlank (inner ++ trailing) := by
    cases inner with
    | nil => exact absurd rfl some_inner
    | cons character tail => exact stops_cons.mpr (stops_cons.mp begins)
  -- Behind, the same is done to the reversed text.
  rw [trimChars, trimFront, List.append_assoc, dropWhile_append_of_stops blank behind, trimBack,
    List.reverse_append, dropWhile_append_of_stops (by simpa using blank') ends,
    List.reverse_reverse]

theorem Name.stops_chars_reverse (name : Name) : Stops isBlank name.chars.reverse := by
  intro character member
  have member := List.mem_reverse.mp (List.mem_of_mem_head? member)
  exact not_isBlank_of_isNameChar (name.isNameChar_of_mem member)

theorem Segment.stops_chars_reverse (segment : Segment) :
    Stops isBlank segment.chars.reverse := by
  cases segment with
  | property name =>
    rw [Segment.chars, List.reverse_cons]
    -- A segment ends in its name or in the closing bracket.
    exact name.stops_chars_reverse.append (stops_cons.mpr (by decide))
  | index numeral =>
    rw [Segment.chars, ← List.cons_append, List.reverse_concat]
    exact stops_cons.mpr (by decide)
  | key quoted =>
    rw [Segment.chars, ← List.cons_append, List.reverse_concat]
    exact stops_cons.mpr (by decide)

theorem stops_segments_reverse (segments : List Segment) :
    Stops isBlank (segments.flatMap Segment.chars).reverse := by
  induction segments with
  | nil => exact stops_nil
  | cons segment rest ih =>
    rw [List.flatMap_cons, List.reverse_append]
    exact ih.append segment.stops_chars_reverse

namespace Derivation

theorem stops_chars (derivation : Derivation) : Stops isBlank derivation.chars := by
  have named := derivation.root.isNameChar_of_mem List.mem_cons_self
  exact stops_cons.mpr (not_isBlank_of_isNameChar named)

theorem stops_chars_reverse (derivation : Derivation) : Stops isBlank derivation.chars.reverse := by
  rw [chars, List.reverse_append]
  exact (stops_segments_reverse derivation.segments).append derivation.root.stops_chars_reverse

/-- A derivation neither begins nor ends with a blank, so trimming finds it. -/
theorem spells_iff (derivation : Derivation) (input : String) :
    derivation.Spells input ↔ trimChars input.toList = derivation.chars := by
  constructor
  · rintro ⟨leading, trailing, blank, blank', equal⟩
    rw [equal]
    exact trimChars_append (by simp [chars, Name.chars]) blank blank' derivation.stops_chars
      derivation.stops_chars_reverse
  · intro trimmed
    rw [Spells, ← trimmed]
    exact exists_eq_append_trimChars input.toList

end Derivation

/-! ### One derivation at most -/

theorem Name.chars_append_inj {left right : Name} {rest rest' : List Char}
    (stops : Stops isNameChar rest) (stops' : Stops isNameChar rest')
    (equal : left.chars ++ rest = right.chars ++ rest') : left = right ∧ rest = rest' := by
  obtain ⟨same, behind⟩ := append_inj_of_stops (fun _ => left.isNameChar_of_mem) stops
    (fun _ => right.isNameChar_of_mem) stops' equal
  obtain ⟨first, rest⟩ := List.cons.inj same
  exact ⟨Name.ext first rest, behind⟩

theorem Numeral.chars_append_inj {left right : Numeral} {rest rest' : List Char}
    (stops : Stops Char.isDigit rest) (stops' : Stops Char.isDigit rest')
    (equal : left.chars ++ rest = right.chars ++ rest') : left = right ∧ rest = rest' := by
  obtain ⟨same, behind⟩ := append_inj_of_stops (fun _ => left.isDigit_of_mem) stops
    (fun _ => right.isDigit_of_mem) stops' equal
  obtain ⟨first, rest⟩ := List.cons.inj same
  exact ⟨Numeral.ext first rest, behind⟩

theorem Quote.char_inj {left right : Quote} (equal : left.char = right.char) : left = right := by
  cases left <;> cases right <;> first | rfl | exact absurd equal (by decide)

theorem QuotedKey.chars_append_inj {left right : QuotedKey} {rest rest' : List Char}
    (equal : left.chars ++ rest = right.chars ++ rest') : left = right ∧ rest = rest' := by
  obtain ⟨quote, content, unquoted⟩ := left
  obtain ⟨quote', content', unquoted'⟩ := right
  simp only [QuotedKey.chars, List.cons_append, List.append_assoc, List.nil_append,
    List.cons.injEq] at equal
  obtain ⟨quotes, equal⟩ := equal
  obtain rfl := Quote.char_inj quotes
  obtain ⟨rfl, behind⟩ := append_inj_of_stops (bne_of_mem unquoted) (stops_quote _ rest)
    (bne_of_mem unquoted') (stops_quote _ rest') equal
  exact ⟨rfl, (List.cons.inj behind).2⟩

/-- A dot tells a property from a bracket, and a quote a key from a position. -/
theorem Segment.chars_append_inj {left right : Segment} {rest rest' : List Char}
    (stops : Stops isNameChar rest) (stops' : Stops isNameChar rest')
    (equal : left.chars ++ rest = right.chars ++ rest') : left = right ∧ rest = rest' := by
  cases left <;> cases right <;>
    simp only [Segment.chars, List.cons_append, List.append_assoc, List.nil_append,
      List.cons.injEq, true_and] at equal
  case property.property name name' =>
    obtain ⟨rfl, behind⟩ := Name.chars_append_inj stops stops' equal
    exact ⟨rfl, behind⟩
  case index.index numeral numeral' =>
    obtain ⟨rfl, behind⟩ :=
      Numeral.chars_append_inj (stops_closing rest) (stops_closing rest') equal
    exact ⟨rfl, (List.cons.inj behind).2⟩
  case key.key quoted quoted' =>
    obtain ⟨rfl, behind⟩ := QuotedKey.chars_append_inj equal
    exact ⟨rfl, (List.cons.inj behind).2⟩
  -- The kinds of segments differ in their first or second character.
  case index.key numeral quoted =>
    exact absurd (List.cons.inj equal).1 (numeral.first_ne_quote quoted.quote)
  case key.index quoted numeral =>
    exact absurd (List.cons.inj equal).1.symm (numeral.first_ne_quote quoted.quote)
  all_goals exact absurd equal.1 (by decide)

/-- No text is made of segments in two ways. -/
theorem segments_chars_inj {left right : List Segment}
    (equal : left.flatMap Segment.chars = right.flatMap Segment.chars) : left = right := by
  induction left generalizing right with
  | nil =>
    cases right with
    | nil => rfl
    | cons segment rest =>
      obtain ⟨character, tail, starts⟩ := segment.exists_chars_eq_cons
      -- A segment is never empty, so both lists end together.
      simp [starts] at equal
  | cons segment rest ih =>
    cases right with
    | nil =>
      obtain ⟨character, tail, starts⟩ := segment.exists_chars_eq_cons
      simp [starts] at equal
    | cons segment' rest' =>
      obtain ⟨rfl, behind⟩ :=
        Segment.chars_append_inj (stops_segments rest) (stops_segments rest') equal
      rw [ih behind]

theorem Derivation.chars_inj {left right : Derivation} (equal : left.chars = right.chars) :
    left = right := by
  obtain ⟨root, behind⟩ :=
    Name.chars_append_inj (stops_segments left.segments) (stops_segments right.segments) equal
  exact Derivation.ext root (segments_chars_inj behind)

/-! ### The grammar -/

/-- The reader of paths accepts the texts of the grammar and no others, with the steps that a
derivation of the text denotes; and a text has one derivation at most, so these steps are the only
ones that it denotes. -/
theorem accepts_exactly_the_grammar (input : String) :
    (∀ steps, readPath input = .ok steps ↔
      ∃ derivation : Derivation, derivation.Spells input ∧ derivation.steps = steps) ∧
    ∀ left right : Derivation, left.Spells input → right.Spells input → left = right := by
  constructor
  · intro steps
    -- Apart from its failure the reader of paths is the reader of the trimmed text.
    have accepted : readPath input = .ok steps ↔
        ofChars? (trimChars input.toList) = some steps := by
      unfold readPath
      cases ofChars? (trimChars input.toList) <;> simp
    simp only [accepted, ofChars?_eq_some_iff, Derivation.spells_iff,
      eq_comm (a := trimChars input.toList)]
  · intro left right spelled spelled'
    rw [Derivation.spells_iff] at spelled spelled'
    exact Derivation.chars_inj (spelled.symm.trans spelled')

/-- `rates["it's [a].b"][0]`, with the other quote, brackets and a dot in its key. -/
def quotedRate : Derivation where
  root := ⟨'r', "ates".toList, by decide, by simp [IsLetter]⟩
  segments := [.key ⟨.double, "it's [a].b".toList, by decide⟩,
    .index ⟨'0', [], by decide, by simp, fun _ => rfl, by decide⟩]

theorem accepts_exactly_the_grammar_of_quotedRate :
    quotedRate.Spells "\t rates[\"it's [a].b\"][0] " ∧
    readPath "\t rates[\"it's [a].b\"][0] " =
      .ok [.property "rates", .key "it's [a].b", .index 0] ∧
    ∀ other : Derivation, other.Spells "\t rates[\"it's [a].b\"][0] " → other = quotedRate := by
  have spelled : quotedRate.Spells "\t rates[\"it's [a].b\"][0] " :=
    ⟨['\t', ' '], [' '], by simp [isBlank, blankCodes], by simp [isBlank, blankCodes], by decide⟩
  obtain ⟨accepted, unique⟩ := accepts_exactly_the_grammar "\t rates[\"it's [a].b\"][0] "
  exact ⟨spelled, (accepted _).mpr ⟨quotedRate, spelled, rfl⟩,
    fun other spelled' => unique other quotedRate spelled' spelled⟩

end Rulebook.Path
