import Rulebook.Proofs.Path.Grammar

/-!
# Written paths

A path is written back step by step, with its keys between single quotes even if it was read with
double ones. Every derivation of its steps is as long as this written form. So the written form is
read as these steps only if it is itself the text of such a derivation, and that is so just if no
key has a single quote in it.
-/
namespace Rulebook.Path

/-- The written form of a path, without the dot in front of the name at its root. -/
def written (steps : List PathStep) : String :=
  String.ofList ((pathText steps).toList.drop 1)

/-- A text is read exactly if a derivation spells it. -/
theorem readPath_eq_ok_iff {input : String} {steps : List PathStep} :
    readPath input = .ok steps ↔
      ∃ derivation : Derivation, derivation.Spells input ∧ derivation.steps = steps := by
  have accepted : readPath input = .ok steps ↔
      ofChars? (trimChars input.toList) = some steps := by
    unfold readPath
    cases ofChars? (trimChars input.toList) <;> simp
  simp only [accepted, ofChars?_eq_some_iff, Derivation.spells_iff,
    eq_comm (a := trimChars input.toList)]

/-! ### Written numerals -/

theorem digitChar_of_isDigit {character : Char} (digit : IsDigit character) :
    character.toNat - '0'.toNat < 10 ∧ (character.toNat - '0'.toNat).digitChar = character := by
  have codes : 48 ≤ character.toNat ∧ character.toNat ≤ 57 := digit
  have zero : '0'.toNat = 48 := rfl
  have small : character.toNat - '0'.toNat < 10 := by omega
  refine ⟨small, Char.toNat_inj.mp ?_⟩
  rw [Nat.toNat_digitChar_of_lt_ten small]
  omega

/-- Digits that follow those of a positive count continue its numeral. -/
theorem toDigits_append_digits {count : Nat} (positive : 0 < count) {digits : List Char}
    (areDigits : ∀ character ∈ digits, IsDigit character) :
    Nat.toDigits 10 count ++ digits = Nat.toDigits 10 (Nat.ofDigitChars 10 digits count) := by
  induction digits generalizing count with
  | nil => rw [List.append_nil, Nat.ofDigitChars_nil]
  | cons digit digits ih =>
    obtain ⟨isDigit, rest⟩ := List.forall_mem_cons.mp areDigits
    obtain ⟨small, same⟩ := digitChar_of_isDigit isDigit
    have one : Nat.toDigits 10 (digit.toNat - '0'.toNat) = [digit] := by
      rw [Nat.toDigits_of_lt_base small, same]
    -- One more digit makes ten times the count and the digit.
    have longer : Nat.toDigits 10 count ++ [digit] =
        Nat.toDigits 10 (10 * count + (digit.toNat - '0'.toNat)) := by
      rw [← Nat.toDigits_append_toDigits (by decide) positive small, one]
    rw [Nat.ofDigitChars_cons, ← ih (by omega) rest, ← longer, List.append_assoc,
      List.singleton_append]

/-- A numeral without leading zeros is the one that its value is written with. -/
theorem Numeral.chars_eq_toDigits (numeral : Numeral) :
    numeral.chars = Nat.toDigits 10 numeral.value := by
  obtain ⟨small, same⟩ := digitChar_of_isDigit numeral.first_digit
  have one : Nat.toDigits 10 (numeral.first.toNat - '0'.toNat) = [numeral.first] := by
    rw [Nat.toDigits_of_lt_base small, same]
  rw [Numeral.value, Numeral.chars, Nat.ofDigitChars_cons, Nat.mul_zero, Nat.zero_add]
  by_cases zero : numeral.first = '0'
  · -- A zero in front is the whole numeral.
    rw [numeral.alone_of_zero zero, Nat.ofDigitChars_nil, one]
  · have positive : 0 < numeral.first.toNat - '0'.toNat := by
      refine Nat.pos_of_ne_zero fun none => zero ?_
      rw [← same, none]
      rfl
    rw [← toDigits_append_digits positive numeral.rest_digit, one, List.singleton_append]

/-! ### Written steps -/

theorem toList_text_property (name : Name) :
    (PathStep.property (String.ofList name.chars)).text.toList = '.' :: name.chars := by
  simp [PathStep.text]

theorem toList_text_index (numeral : Numeral) :
    (PathStep.index numeral.value).text.toList = '[' :: (numeral.chars ++ [']']) := by
  simp [PathStep.text, numeral.chars_eq_toDigits, Nat.repr_eq_ofList_toDigits]

theorem toList_text_key (content : List Char) :
    (PathStep.key (String.ofList content)).text.toList =
      '[' :: ('\'' :: (content ++ ['\'']) ++ [']']) := by
  simp [PathStep.text]

/-- Every spelling of a step is as long as the one that is written. -/
theorem Segment.length_chars (segment : Segment) :
    segment.chars.length = segment.step.text.toList.length := by
  cases segment with
  | property name => rw [step, toList_text_property, chars]
  | index numeral => rw [step, toList_text_index, chars]
  | key quoted =>
    rw [step, toList_text_key, chars, QuotedKey.chars]
    simp only [List.cons_append, List.length_cons, List.length_append]

/-- The text between single quotes has none in it. -/
theorem Segment.unquoted_of_chars {segment : Segment}
    (same : segment.chars = segment.step.text.toList) {name : String}
    (keyed : segment.step = .key name) : '\'' ∉ name.toList := by
  cases segment with
  | property _ | index _ => cases keyed
  | key quoted =>
    cases keyed
    rw [step, toList_text_key, chars, QuotedKey.chars] at same
    -- Both spellings hold the same content, so the character in front of it is the same as well.
    have single : quoted.quote.char = '\'' := (List.cons.inj (List.cons.inj same).2).1
    rw [String.toList_ofList, ← single]
    exact quoted.unquoted

/-- A step can be spelled in the way it is written, unless it is a key with a single quote in it. -/
theorem Segment.exists_written (segment : Segment)
    (unquoted : ∀ name, segment.step = .key name → '\'' ∉ name.toList) :
    ∃ other : Segment, other.step = segment.step ∧ other.chars = segment.step.text.toList := by
  cases segment with
  | property name => exact ⟨.property name, rfl, (toList_text_property name).symm⟩
  | index numeral => exact ⟨.index numeral, rfl, (toList_text_index numeral).symm⟩
  | key quoted =>
    have free : '\'' ∉ quoted.content := by
      simpa only [String.toList_ofList] using unquoted _ rfl
    exact ⟨.key ⟨.single, quoted.content, free⟩, rfl, (toList_text_key quoted.content).symm⟩

/-! ### Written segments, one after another -/

theorem chars_eq_text_of_flatMap {segments : List Segment}
    (same : segments.flatMap Segment.chars = segments.flatMap (·.step.text.toList)) :
    ∀ segment ∈ segments, segment.chars = segment.step.text.toList := by
  induction segments with
  | nil => exact List.forall_mem_nil _
  | cons segment rest ih =>
    -- Segment by segment, since each is as long as it is written.
    obtain ⟨head, behind⟩ := List.append_inj same segment.length_chars
    exact List.forall_mem_cons.mpr ⟨head, ih behind⟩

theorem exists_written_segments (segments : List Segment)
    (unquoted : ∀ name, .key name ∈ segments.map Segment.step → '\'' ∉ name.toList) :
    ∃ others : List Segment, others.map Segment.step = segments.map Segment.step ∧
      others.flatMap Segment.chars = segments.flatMap (·.step.text.toList) := by
  induction segments with
  | nil => exact ⟨[], rfl, rfl⟩
  | cons segment rest ih =>
    -- Each segment is spelled anew for itself.
    obtain ⟨other, stepped, spelled⟩ := segment.exists_written fun name keyed =>
      unquoted name (List.mem_cons.mpr (.inl keyed.symm))
    obtain ⟨others, stepped', spelled'⟩ := ih fun name member =>
      unquoted name (List.mem_cons_of_mem _ member)
    exact ⟨other :: others, by rw [List.map_cons, List.map_cons, stepped, stepped'],
      by rw [List.flatMap_cons, List.flatMap_cons, spelled, spelled']⟩

namespace Derivation

theorem toList_pathText (derivation : Derivation) :
    (pathText derivation.steps).toList =
      '.' :: (derivation.root.chars ++ derivation.segments.flatMap (·.step.text.toList)) := by
  rw [pathText, String.toList_join, steps, List.map_cons, List.map_map, List.flatMap_cons,
    List.flatMap_map, toList_text_property, List.cons_append]
  rfl

theorem toList_written (derivation : Derivation) :
    (written derivation.steps).toList =
      derivation.root.chars ++ derivation.segments.flatMap (·.step.text.toList) := by
  rw [written, String.toList_ofList, toList_pathText, List.drop_one, List.tail_cons]

theorem length_chars (derivation : Derivation) :
    derivation.chars.length = (written derivation.steps).toList.length := by
  rw [toList_written, chars, List.length_append, List.length_append, List.length_flatMap,
    List.length_flatMap]
  simp only [Segment.length_chars]

/-- There is no room for blanks around a derivation of the written form. -/
theorem chars_eq_of_spells_written {derivation : Derivation}
    (spelled : derivation.Spells (written derivation.steps)) :
    derivation.chars = (written derivation.steps).toList := by
  obtain ⟨leading, trailing, _, _, split⟩ := spelled
  have lengths := congrArg List.length split
  rw [List.length_append, List.length_append, ← derivation.length_chars] at lengths
  have noneBefore : leading = [] := List.eq_nil_of_length_eq_zero (by omega)
  have noneBehind : trailing = [] := List.eq_nil_of_length_eq_zero (by omega)
  rw [split, noneBefore, noneBehind, List.nil_append, List.append_nil]

theorem spells_chars (derivation : Derivation) :
    derivation.Spells (String.ofList derivation.chars) :=
  ⟨[], [], List.forall_mem_nil _, List.forall_mem_nil _, by simp⟩

end Derivation

/-- A path that was read is written with a dot in front, and read again without it, it has the same
steps just if none of its keys has a single quote in it. -/
theorem written_path_is_read_back (input : String) (steps : List PathStep)
    (read : readPath input = .ok steps) :
    (pathText steps).toList = '.' :: (written steps).toList ∧
      (readPath (written steps) = .ok steps ↔
        ∀ name, .key name ∈ steps → '\'' ∉ name.toList) := by
  obtain ⟨derivation, _, rfl⟩ := readPath_eq_ok_iff.mp read
  refine ⟨by rw [derivation.toList_pathText, derivation.toList_written], ?_, ?_⟩
  · intro again name member
    obtain ⟨other, spelled, same⟩ := readPath_eq_ok_iff.mp again
    rw [← same] at spelled member
    -- The derivation is as long as what it spells, so its segments stand where they are written.
    have spelling := other.chars_eq_of_spells_written spelled
    rw [Derivation.chars, other.toList_written] at spelling
    have behind : .key name ∈ other.segments.map Segment.step :=
      (List.mem_cons.mp member).resolve_left (fun root => by cases root)
    obtain ⟨segment, within, keyed⟩ := List.mem_map.mp behind
    exact Segment.unquoted_of_chars
      (chars_eq_text_of_flatMap (List.append_cancel_left spelling) segment within) keyed
  · -- The same segments, with every key between single quotes, are a derivation of what is written.
    intro unquoted
    obtain ⟨others, stepped, spelled⟩ := exists_written_segments derivation.segments
      fun name member => unquoted name (List.mem_cons_of_mem _ member)
    let other : Derivation := ⟨derivation.root, others⟩
    have same : other.steps = derivation.steps := congrArg (_ :: ·) stepped
    have spelling : written derivation.steps = String.ofList other.chars := by
      rw [← String.toList_inj, String.toList_ofList, derivation.toList_written, ← spelled]
      rfl
    exact readPath_eq_ok_iff.mpr ⟨other, spelling ▸ other.spells_chars, same⟩

/-- `rates["usage type"][10]` is written back with the other quotes. -/
theorem written_path_is_read_back_of_usage :
    let steps : List PathStep := [.property "rates", .key "usage type", .index 10]
    readPath " rates[\"usage type\"][10]" = .ok steps ∧
      (∀ name, .key name ∈ steps → '\'' ∉ name.toList) ∧
      written steps = "rates['usage type'][10]" ∧ readPath (written steps) = .ok steps := by
  intro steps
  have read : readPath " rates[\"usage type\"][10]" = .ok steps := by decide +kernel
  have unquoted : ∀ name, .key name ∈ steps → '\'' ∉ name.toList := by
    simp [steps]
  obtain ⟨_, back⟩ := written_path_is_read_back _ steps read
  exact ⟨read, unquoted, by decide +kernel, back.mpr unquoted⟩

/-- `rates["driver's"]` is a path, but its written form is none. And the written form of
`rates["a']['b"]`, a path with one key, is a path with two. -/
theorem key_with_quote_not_read_back :
    (readPath "rates[\"driver's\"]" = .ok [.property "rates", .key "driver's"] ∧
      written [.property "rates", .key "driver's"] = "rates['driver's']" ∧
      readPath "rates['driver's']" = .error ⟨"rates['driver's']", .unparsed .path⟩) ∧
    readPath "rates[\"a']['b\"]" = .ok [.property "rates", .key "a']['b"] ∧
      written [.property "rates", .key "a']['b"] = "rates['a']['b']" ∧
      readPath "rates['a']['b']" = .ok [.property "rates", .key "a", .key "b"] := by
  refine ⟨⟨?_, ?_, ?_⟩, ?_, ?_, ?_⟩ <;> decide +kernel

end Rulebook.Path
