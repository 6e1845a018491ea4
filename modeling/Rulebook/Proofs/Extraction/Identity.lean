import Rulebook.Proofs.Extraction.Leaves
import Rulebook.Proofs.Path.Grammar
import Rulebook.Proofs.Value.Sameness

/-!
# Leaves with the same name

A leaf without an identity of its own is named by its place, where the keys around it are written
one behind the other. The keys of two leaves part at two elements of one collection. A position ends
at its bracket, but the name of an entry is written as it is, so it can hold the end of a shorter
name and the keys behind that one. Two leaves share a name exactly if this happens, and it needs the
three characters `'][` in the name of an entry.
-/
namespace Rulebook

namespace ElementKey

/-- Keys of two elements of one collection. -/
inductive Differs : ElementKey → ElementKey → Prop
  | index {position other : Nat} (different : position ≠ other) :
      Differs (.index position) (.index other)
  | key {name other : String} (different : name ≠ other) : Differs (.key name) (.key other)

/-- The keys around a leaf, written from the outermost to the innermost. -/
def textOf (keys : List ElementKey) : String :=
  String.join (keys.map text)

/-- The keys lead into one collection and from there to different elements. -/
inductive Part : List ElementKey → List ElementKey → Prop
  | here {key other : ElementKey} (differs : Differs key other) (keys others : List ElementKey) :
      Part (key :: keys) (other :: others)
  | under (key : ElementKey) {keys others : List ElementKey} (part : Part keys others) :
      Part (key :: keys) (key :: others)

/-- The keys lead into one map, and there the name on the right is the name on the left, the end of
its key and the beginning of how the keys on the left go on. -/
inductive Hides : List ElementKey → List ElementKey → Prop
  | here (name inner : String) {keys others : List ElementKey}
      (continues : textOf keys = inner ++ "']" ++ textOf others) :
      Hides (.key name :: keys) (.key (name ++ "']" ++ inner) :: others)
  | under (key : ElementKey) {keys others : List ElementKey} (hides : Hides keys others) :
      Hides (key :: keys) (key :: others)

/-- One of the two hides in a name of the other. -/
def Clash (keys others : List ElementKey) : Prop :=
  Hides keys others ∨ Hides others keys

variable {key other : ElementKey} {keys others : List ElementKey}

theorem textOf_cons (key : ElementKey) (keys : List ElementKey) :
    textOf (key :: keys) = key.text ++ textOf keys := by
  rw [textOf, List.map_cons, String.join_cons, textOf]

theorem toList_text_index (position : Nat) :
    (text (.index position)).toList = '[' :: (Nat.toDigits 10 position ++ [']']) := by
  simp [text, Nat.repr_eq_ofList_toDigits]

theorem toList_text_key (name : String) :
    (text (.key name)).toList = '[' :: '\'' :: (name.toList ++ ['\'', ']']) := by
  simp [text]

/-- What is written behind a position does not matter: its digits end at the bracket. -/
theorem index_of_text_append_eq {position other : Nat} {rest rest' : String}
    (equal : text (.index position) ++ rest = text (.index other) ++ rest') : position = other := by
  rw [← String.toList_inj, String.toList_append, String.toList_append, toList_text_index,
    toList_text_index, List.cons_append, List.cons_append, List.append_assoc, List.append_assoc,
    List.cons.injEq] at equal
  -- Digits end at the first character that is none, and that is the bracket.
  have digits (count : Nat) :
      ∀ character ∈ Nat.toDigits 10 count, character.isDigit = true :=
    fun _ => Nat.isDigit_of_mem_toDigits (by decide) (by decide)
  have stops (rest : List Char) : Path.Stops Char.isDigit ([']'] ++ rest) :=
    Path.stops_cons.mpr rfl
  have same := (Path.append_inj_of_stops (digits position) (stops _) (digits other) (stops _)
    equal.2).1
  rw [← Nat.ofDigitChars_ten_toDigits (n := position), same, Nat.ofDigitChars_ten_toDigits]

/-- Behind different names the texts can only agree if one name goes on beyond the other key. -/
theorem key_text_append_eq_iff {name name' : String} (different : name ≠ name')
    (rest rest' : String) :
    text (.key name) ++ rest = text (.key name') ++ rest' ↔
      (∃ inner, name' = name ++ "']" ++ inner ∧ rest = inner ++ "']" ++ rest') ∨
        ∃ inner, name = name' ++ "']" ++ inner ∧ rest' = inner ++ "']" ++ rest := by
  -- The longer name takes at least the two characters with which the shorter key ends.
  have beyond {name name' : String} (different : name ≠ name') {rest rest' more : List Char}
      (longer : name'.toList = name.toList ++ more)
      (behind : ['\'', ']'] ++ rest = more ++ (['\'', ']'] ++ rest')) :
      ∃ inner, name' = name ++ "']" ++ String.ofList inner ∧
        rest = inner ++ ['\'', ']'] ++ rest' := by
    match more with
    | [] => exact absurd (String.toList_inj.mp (by simpa using longer.symm)) different
    | [quote] => simp at behind
    | quote :: bracket :: inner =>
      obtain ⟨rfl, rfl, rest⟩ : '\'' = quote ∧ ']' = bracket ∧
          rest = inner ++ '\'' :: ']' :: rest' := by
        simpa using behind
      refine ⟨inner, ?_, by simpa using rest⟩
      rw [← String.toList_inj, longer]
      simp
  rw [← String.toList_inj, String.toList_append, String.toList_append, toList_text_key,
    toList_text_key]
  simp only [List.cons_append, List.cons.injEq, true_and, List.append_assoc]
  constructor
  · intro equal
    rcases List.append_eq_append_iff.mp equal with ⟨more, longer, behind⟩ | ⟨more, longer, behind⟩
    · obtain ⟨inner, same, rest⟩ := beyond different longer behind
      exact .inl ⟨_, same, String.toList_inj.mp (by simpa using rest)⟩
    · obtain ⟨inner, same, rest⟩ := beyond different.symm longer behind
      exact .inr ⟨_, same, String.toList_inj.mp (by simpa using rest)⟩
  · rintro (⟨inner, rfl, rfl⟩ | ⟨inner, rfl, rfl⟩) <;> simp

theorem not_hides_of_index {position other : Nat} (different : position ≠ other) :
    ¬Hides (.index position :: keys) (.index other :: others) := by
  intro hides
  cases hides with
  | under => exact different rfl

theorem hides_key_iff {name name' : String} (different : name ≠ name') :
    Hides (.key name :: keys) (.key name' :: others) ↔
      ∃ inner, name' = name ++ "']" ++ inner ∧ textOf keys = inner ++ "']" ++ textOf others := by
  constructor
  · intro hides
    cases hides with
    | here _ inner continues => exact ⟨inner, rfl, continues⟩
    | under => exact absurd rfl different
  · rintro ⟨inner, rfl, continues⟩
    exact .here name inner continues

theorem hides_cons_self (key : ElementKey) :
    Hides (key :: keys) (key :: others) ↔ Hides keys others := by
  constructor
  · intro hides
    generalize keyed : key :: others = right at hides
    cases hides with
    | here name inner =>
      -- A name is no proper beginning of itself.
      have lengths := congrArg String.length (ElementKey.key.inj (List.cons.inj keyed).1)
      have positive : 0 < "']".length := by decide
      rw [String.length_append, String.length_append] at lengths
      omega
    | under _ hides => exact (List.cons.inj keyed).2 ▸ hides
  · exact .under key

/-- Keys that part are written alike exactly if one of them hides in a name of the other. -/
theorem Part.textOf_eq_iff (part : Part keys others) :
    textOf keys = textOf others ↔ Clash keys others := by
  induction part with
  | here differs keys others =>
    rw [textOf_cons, textOf_cons, Clash]
    cases differs with
    | index different =>
      refine iff_of_false (fun equal => different (index_of_text_append_eq equal)) ?_
      rintro (hides | hides)
      · exact not_hides_of_index different hides
      · exact not_hides_of_index different.symm hides
    | key different =>
      -- Names differ here, so what is written agrees just if one of them holds the key of the
      -- other.
      rw [key_text_append_eq_iff different, hides_key_iff different, hides_key_iff different.symm]
  | under key _ ih =>
    rw [textOf_cons, textOf_cons, String.append_right_inj, ih, Clash, Clash, hides_cons_self,
      hides_cons_self]

/-- A name in which keys hide has the end of one key and the start of another in it. -/
theorem Hides.exists_name (hides : Hides keys others) :
    ∃ name, .key name ∈ others ∧ "'][".toList <:+: name.toList := by
  induction hides with
  | here name inner continues =>
    refine ⟨_, List.mem_cons_self, name.toList, ?_⟩
    rename_i keys others
    -- The text behind the shorter name is not empty, so it starts with a bracket.
    cases keys with
    | nil => simpa [textOf, String.join] using congrArg String.toList continues
    | cons key keys =>
      have start : (textOf (key :: keys)).toList.head? = some '[' := by
        rw [textOf_cons, String.toList_append]
        cases key with
        | index position => rw [toList_text_index]; rfl
        | key name => rw [toList_text_key]; rfl
      rw [continues] at start
      cases within : inner.toList with
      | nil => simp [within] at start
      | cons first inner =>
        obtain rfl : first = '[' := by simpa [within] using start
        exact ⟨inner, by simp [within]⟩
  | under _ _ ih =>
    obtain ⟨name, member, held⟩ := ih
    exact ⟨name, List.mem_cons_of_mem _ member, held⟩

end ElementKey

open ElementKey (Part Clash)

namespace Value

/-- The value is an entity with an identity of its own. -/
def HasIdentity (value : Value) : Prop :=
  ∃ typeName identity fields, value = .entity typeName (some identity) fields

/-- Elements of a collection have different keys. -/
theorem elements_differ {collection : Value} (distinct : collection.entries.Distinct)
    {elements : List (ElementKey × Value)}
    (iterated : AdapterRegistry.standard.iterate collection = .ok elements) :
    elements.Pairwise fun element other => ElementKey.Differs element.1 other.1 := by
  cases collection with
  | list items =>
    cases iterated
    have positions : ((items.zipIdx).map Prod.snd).Nodup := by
      rw [List.zipIdx_map_snd]
      exact List.nodup_range' 1
    exact List.pairwise_map.mpr ((List.pairwise_map.mp positions).imp .index)
  | map entries =>
    cases iterated
    exact List.pairwise_map.mpr ((List.pairwise_map.mp distinct).imp .key)
  | _ => cases iterated

/-- The keys of any two leaves part: in the elements of one collection or within one of them. -/
theorem leaves_part {value : Value} (distinct : value.KeysDistinct) :
    value.leaves.Pairwise fun leaf other => Part leaf.keys other.keys := by
  induction distinct with
  | @intro value entries _ ih =>
    by_cases collects : value.shape.isCollection = true
    · obtain ⟨elements, iterated, listed⟩ := value.exists_elements collects
      rw [listed, List.pairwise_flatMap]
      -- Two leaves are within one element, or in two elements of which one comes first.
      constructor
      · intro element member
        have part : element.2 ∈ value.parts := by
          cases value with
          | list items =>
            cases iterated
            obtain ⟨_, indexed, rfl⟩ := List.mem_map.mp member
            exact List.fst_mem_of_mem_zipIdx indexed
          | map entries =>
            cases iterated
            obtain ⟨entry, found, rfl⟩ := List.mem_map.mp member
            exact List.mem_map_of_mem found
          | _ => cases collects
        exact List.pairwise_map.mpr ((ih _ part).imp (.under element.1))
      · refine (elements_differ entries iterated).imp fun differs leaf member other member' => ?_
        obtain ⟨_, _, rfl⟩ := List.mem_map.mp member
        obtain ⟨_, _, rfl⟩ := List.mem_map.mp member'
        exact .here differs _ _
    · cases value with
      | present inner =>
        rw [leaves]
        split
        · exact ih inner (List.mem_singleton.mpr rfl)
        · split
          · exact .nil
          · exact List.pairwise_singleton _ _
      | null | absent => exact .nil
      | list _ | map _ => exact absurd rfl collects
      | _ => exact List.pairwise_singleton _ _

end Value

namespace Leaf

theorem id_found {leaf : Leaf} (nameless : ¬leaf.value.HasIdentity) (origin : String) :
    (leaf.found origin).id = origin ++ ElementKey.textOf leaf.keys := by
  unfold Instance.id
  split
  next typeName identity fields same => exact absurd ⟨typeName, identity, fields, same⟩ nameless
  next => rfl

end Leaf

namespace AdapterRegistry

/-- Extracted instances without an identity of their own, found at two positions of a value, have
the same name exactly if the keys of one hide in a name in the other's keys. No two of them do if no
name on the way to a leaf has the end of a key and the start of the next one in it. -/
theorem names_of_places (value : Value) (distinct : value.KeysDistinct) (origin : String) :
    ∃ found, standard.extract value origin = .ok found ∧
      found = value.leaves.map (Leaf.found origin) ∧
      (value.leaves.Pairwise fun leaf other =>
        ¬leaf.value.HasIdentity → ¬other.value.HasIdentity →
          ((leaf.found origin).id = (other.found origin).id ↔ Clash leaf.keys other.keys)) ∧
      ((∀ leaf ∈ value.leaves, ∀ name, .key name ∈ leaf.keys → ¬"'][".toList <:+: name.toList) →
        found.Pairwise fun single other =>
          ¬single.value.HasIdentity → ¬other.value.HasIdentity → single.id ≠ other.id) := by
  -- The origin is written in front of all of them and tells nothing.
  have clashing : value.leaves.Pairwise fun leaf other =>
      ¬leaf.value.HasIdentity → ¬other.value.HasIdentity →
        ((leaf.found origin).id = (other.found origin).id ↔ Clash leaf.keys other.keys) := by
    refine (value.leaves_part distinct).imp fun part nameless nameless' => ?_
    rw [Leaf.id_found nameless, Leaf.id_found nameless', String.append_right_inj,
      part.textOf_eq_iff]
  refine ⟨_, extract_standard value origin, rfl, clashing, fun free => ?_⟩
  rw [List.pairwise_map]
  refine clashing.imp_of_mem fun {leaf other} member member' same nameless nameless' equal => ?_
  rcases (same nameless nameless').mp equal with hides | hides
  · obtain ⟨name, key, held⟩ := hides.exists_name
    exact free other member' name key held
  · obtain ⟨name, key, held⟩ := hides.exists_name
    exact free leaf member name key held

/-- A quote in a name does no harm on its own. -/
theorem names_of_places_of_drivers :
    let drivers := Value.map [("driver's", .list [.bool true, .bool false]), ("driver", .null),
      ("']", .bool true)]
    drivers.KeysDistinct ∧ ∃ found, standard.extract drivers "Policy" = .ok found ∧
      found.map Instance.id =
        ["Policy['driver's'][0]", "Policy['driver's'][1]", "Policy['']']"] ∧
      found.Pairwise fun single other =>
        ¬single.value.HasIdentity → ¬other.value.HasIdentity → single.id ≠ other.id := by
  intro drivers
  have scalar (truth : Bool) : (Value.bool truth).KeysDistinct := .of_scalar rfl rfl
  have distinct : drivers.KeysDistinct := by
    refine .intro (by decide +kernel) fun part member => ?_
    obtain rfl | rfl | rfl : part = .list [.bool true, .bool false] ∨ part = .null ∨
        part = .bool true := by simpa [drivers, Value.parts] using member
    · refine .intro List.nodup_nil fun item member => ?_
      obtain rfl | rfl : item = .bool true ∨ item = .bool false := by
        simpa [Value.parts] using member
      · exact scalar true
      · exact scalar false
    · exact .of_scalar rfl rfl
    · exact scalar true
  obtain ⟨found, extracted, listed, -, unambiguous⟩ := names_of_places drivers distinct "Policy"
  have leaves : drivers.leaves =
      [⟨[.key "driver's", .index 0], .bool true⟩, ⟨[.key "driver's", .index 1], .bool false⟩,
        ⟨[.key "']"], .bool true⟩] := rfl
  refine ⟨distinct, found, extracted, ?_, unambiguous ?_⟩
  · rw [listed, leaves]
    decide +kernel
  · intro leaf member name key
    have names : name = "driver's" ∨ name = "']" := by
      rw [leaves] at member
      simp only [List.mem_cons, List.not_mem_nil, or_false] at member
      obtain rfl | rfl | rfl := member <;> simp at key <;> simp [key]
    obtain rfl | rfl := names <;> decide +kernel

/-- The name of the second entry is how the keys of the first leaf are written. -/
theorem same_name_at_two_positions :
    let rates := Value.map [("a", .map [("b", .bool true)]), ("a']['b", .bool false)]
    rates.KeysDistinct ∧ ∃ first second, standard.extract rates "x" = .ok [first, second] ∧
      first.value = .bool true ∧ second.value = .bool false ∧
      ¬first.value.HasIdentity ∧ ¬second.value.HasIdentity ∧ first.id = second.id := by
  intro rates
  have scalar (truth : Bool) : (Value.bool truth).KeysDistinct := .of_scalar rfl rfl
  refine ⟨.intro (by decide +kernel) fun part member => ?_, _, _, extract_standard rates "x",
    rfl, rfl, nofun, nofun, rfl⟩
  obtain rfl | rfl : part = .map [("b", .bool true)] ∨ part = .bool false := by
    simpa [rates, Value.parts] using member
  · refine .intro (by decide +kernel) fun item member => ?_
    obtain rfl := List.mem_singleton.mp member
    exact scalar true
  · exact scalar false

end AdapterRegistry

end Rulebook
