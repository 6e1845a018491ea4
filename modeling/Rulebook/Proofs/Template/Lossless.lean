import Rulebook.Proofs.Path.Grammar
import Rulebook.Template.Message

/-!
# Nothing of a template is lost

A template is scanned character by character for its placeholders, and the scan is stated without
the reader of tokens, which takes whole stretches of text at once. The reader splits off a token
exactly where the scan has one, so it succeeds exactly for the texts that can be scanned, finds the
placeholders of the scan, and its tokens put together are the text. Reading a message appends each
token to what the parts and the placeholders in turn spell, so these spell the whole template.
-/
namespace Rulebook

namespace MessageToken

/-- What stands between the braces of a placeholder. -/
def inner? : MessageToken → Option (List Char)
  | text _ => none
  | placeholder inner => some inner

theorem filterMap_inner?_cons (token : MessageToken) (rest : List MessageToken) :
    (token :: rest).filterMap inner? = token.inner?.toList ++ rest.filterMap inner? := by
  cases token <;> rfl

end MessageToken

namespace Template

/-- A placeholder is opened at the front. -/
def Opens (characters : List Char) : Prop :=
  ∃ behind, characters = '$' :: '\x7b' :: behind

/-- The scan of a template from left to right, with what stands between the braces of its
placeholders: each opening is followed by characters other than a closing brace, at least one, and
then by a closing brace. -/
inductive Scans : List Char → List (List Char) → Prop
  | done : Scans [] []
  | character {first : Char} {rest : List Char} {inners : List (List Char)}
      (plain : ¬Opens (first :: rest)) (further : Scans rest inners) : Scans (first :: rest) inners
  | placeholder {inner rest : List Char} {inners : List (List Char)} (filled : inner ≠ [])
      (open_inside : '\x7d' ∉ inner) (further : Scans rest inners) :
      Scans ('$' :: '\x7b' :: (inner ++ '\x7d' :: rest)) (inner :: inners)

/-! ### The scan of the front -/

section Front

variable {inner rest : List Char} {inners : List (List Char)}

theorem opens_cons (behind : List Char) : Opens ('$' :: '\x7b' :: behind) :=
  ⟨behind, rfl⟩

theorem not_opens_of_ne {first : Char} (other : first ≠ '$') (rest : List Char) :
    ¬Opens (first :: rest) := by
  rintro ⟨behind, equal⟩
  exact other (List.cons.inj equal).1

/-- What is no opening is passed over. -/
theorem scans_plain {first : Char} (plain : ¬Opens (first :: rest)) :
    Scans (first :: rest) inners ↔ Scans rest inners := by
  constructor
  · intro scanned
    cases scanned with
    | character _ further => exact further
    | placeholder => exact absurd (opens_cons _) plain
  · exact Scans.character plain

/-- Text without a dollar sign opens nothing. -/
theorem scans_text {front : List Char} (dollarless : ∀ character ∈ front, character ≠ '$') :
    Scans (front ++ rest) inners ↔ Scans rest inners := by
  induction front with
  | nil => rfl
  | cons first tail ih =>
    obtain ⟨other, others⟩ := List.forall_mem_cons.mp dollarless
    rw [List.cons_append, scans_plain (not_opens_of_ne other _), ih others]

theorem scans_opening {behind : List Char} :
    Scans ('$' :: '\x7b' :: behind) inners ↔
      ∃ inner rest inners', inner ≠ [] ∧ '\x7d' ∉ inner ∧ behind = inner ++ '\x7d' :: rest ∧
        inners = inner :: inners' ∧ Scans rest inners' := by
  constructor
  · intro scanned
    cases scanned with
    | character plain _ => exact absurd (opens_cons behind) plain
    | placeholder filled open_inside further =>
      exact ⟨_, _, _, filled, open_inside, rfl, rfl, further⟩
  · rintro ⟨inner, rest, inners', filled, open_inside, rfl, rfl, further⟩
    exact .placeholder filled open_inside further

/-- The first closing brace ends a placeholder, so there is one way to scan it. -/
theorem scans_placeholder (filled : inner ≠ []) (open_inside : '\x7d' ∉ inner) :
    Scans ('$' :: '\x7b' :: (inner ++ '\x7d' :: rest)) inners ↔
      ∃ inners', inners = inner :: inners' ∧ Scans rest inners' := by
  rw [scans_opening]
  constructor
  · rintro ⟨inner', rest', inners', -, open_inside', equal, rfl, further⟩
    obtain ⟨rfl, behind⟩ := Path.append_inj_of_stops (Path.bne_of_mem open_inside)
      (Path.stops_quote _ rest) (Path.bne_of_mem open_inside') (Path.stops_quote _ rest') equal
    obtain rfl := (List.cons.inj behind).2
    exact ⟨inners', rfl, further⟩
  · rintro ⟨inners', rfl, further⟩
    exact ⟨inner, rest, inners', filled, open_inside, rfl, rfl, further⟩

end Front

/-! ### One token -/

/-- A token at the front and what it leaves: a placeholder, a dollar sign that opens none, or a
stretch of text without dollar signs. -/
inductive Fronts : MessageToken → List Char → List Char → Prop
  | placeholder {inner rest : List Char} (filled : inner ≠ []) (open_inside : '\x7d' ∉ inner) :
      Fronts (.placeholder inner) ('$' :: '\x7b' :: (inner ++ '\x7d' :: rest)) rest
  | dollar {rest : List Char} (plain : ¬Opens ('$' :: rest)) :
      Fronts (.text ['$']) ('$' :: rest) rest
  | text {front rest : List Char} (dollarless : ∀ character ∈ front, character ≠ '$') :
      Fronts (.text front) (front ++ rest) rest

section Tokens

variable {token : MessageToken} {characters rest : List Char} {inners : List (List Char)}

/-- A token and what it leaves are the text. -/
theorem Fronts.append_source (fronts : Fronts token characters rest) :
    token.source ++ rest = characters := by
  cases fronts with
  | placeholder => simp [MessageToken.source]
  | dollar => rfl
  | text => rfl

/-- The scan goes on behind the token and has its placeholder in front. -/
theorem Fronts.scans (fronts : Fronts token characters rest) :
    Scans characters inners ↔
      ∃ inners', inners = token.inner?.toList ++ inners' ∧ Scans rest inners' := by
  cases fronts with
  | placeholder filled open_inside => exact scans_placeholder filled open_inside
  | dollar plain =>
    rw [scans_plain plain]
    simp [MessageToken.inner?]
  | text dollarless =>
    rw [scans_text dollarless]
    simp [MessageToken.inner?]

theorem readToken_opening_eq_some_iff {behind : List Char} :
    readToken ('$' :: '\x7b' :: behind) = some (token, rest) ↔
      ∃ inner, inner ≠ [] ∧ '\x7d' ∉ inner ∧ behind = inner ++ '\x7d' :: rest ∧
        token = .placeholder inner := by
  rw [readToken]
  constructor
  · intro read
    -- The reader takes what stands before the first closing brace.
    have split := List.takeWhile_append_dropWhile (p := (· != '\x7d')) (l := behind)
    have stops := Path.stops_dropWhile (· != '\x7d') behind
    have inside : '\x7d' ∉ behind.takeWhile (· != '\x7d') := fun member => by
      simpa using List.mem_takeWhile_imp member
    cases left : behind.dropWhile (· != '\x7d') with
    | nil => cases taken : behind.takeWhile (· != '\x7d') <;> simp [left, taken] at read
    | cons closing tail =>
      cases taken : behind.takeWhile (· != '\x7d') with
      | nil => simp [taken] at read
      | cons first inner =>
        simp only [left, taken, Option.some.injEq, Prod.mk.injEq] at read split inside
        obtain ⟨rfl, rfl⟩ := read
        -- What ends the run of other characters is the closing brace.
        rw [left] at stops
        obtain rfl : closing = '\x7d' := by simpa using Path.stops_cons.mp stops
        exact ⟨first :: inner, List.cons_ne_nil _ _, inside, split.symm, rfl⟩
  · rintro ⟨inner, filled, open_inside, rfl, rfl⟩
    have others := Path.bne_of_mem open_inside
    have stops := Path.stops_quote '\x7d' rest
    rw [Path.takeWhile_append_of_stops others stops, Path.dropWhile_append_of_stops others stops]
    cases inner with
    | nil => exact absurd rfl filled
    | cons first inner => rfl

theorem readToken_dollar (plain : ¬Opens ('$' :: rest)) :
    readToken ('$' :: rest) = some (.text ['$'], rest) := by
  unfold readToken
  split
  · next equal => cases equal
  · next behind equal => exact absurd ⟨behind, equal⟩ plain
  · next equal => cases equal; rfl
  · next other equal => exact absurd (List.cons.inj equal).1.symm other

theorem readToken_text {first : Char} (other : first ≠ '$') :
    readToken (first :: rest) =
      some (.text (first :: rest.takeWhile (· != '$')), rest.dropWhile (· != '$')) := by
  unfold readToken
  split
  · next equal => cases equal
  · next equal => cases equal; exact absurd rfl other
  · next equal => cases equal; exact absurd rfl other
  · next equal => cases equal; rfl

/-- Every text but an empty one starts with an opening, a lone dollar sign or another character. -/
theorem fronts_of_readToken (read : readToken characters = some (token, rest)) :
    Fronts token characters rest := by
  cases characters with
  | nil => cases read
  | cons first tail =>
    by_cases opened : Opens (first :: tail)
    · obtain ⟨behind, equal⟩ := opened
      rw [equal] at read ⊢
      obtain ⟨inner, filled, open_inside, rfl, rfl⟩ := readToken_opening_eq_some_iff.mp read
      exact .placeholder filled open_inside
    · by_cases dollar : first = '$'
      · subst dollar
        cases (readToken_dollar opened).symm.trans read
        exact .dollar opened
      · cases (readToken_text dollar).symm.trans read
        -- The stretch ends before the first dollar sign.
        have dollarless : ∀ character ∈ first :: tail.takeWhile (· != '$'), character ≠ '$' := by
          refine List.forall_mem_cons.mpr ⟨dollar, fun character member => ?_⟩
          simpa using List.mem_takeWhile_imp member
        have split := List.takeWhile_append_dropWhile (p := (· != '$')) (l := tail)
        have front :
            Fronts _ (first :: (tail.takeWhile (· != '$') ++ tail.dropWhile (· != '$'))) _ :=
          .text dollarless
        rwa [split] at front

/-- Only an opening that is not closed properly has no token at its front. -/
theorem not_scans_of_readToken (unread : readToken characters = none)
    (some_text : characters ≠ []) : ¬Scans characters inners := by
  cases characters with
  | nil => exact absurd rfl some_text
  | cons first tail =>
    by_cases opened : Opens (first :: tail)
    · obtain ⟨behind, equal⟩ := opened
      rw [equal] at unread ⊢
      intro scanned
      obtain ⟨inner, rest, -, filled, open_inside, split, -, -⟩ := scans_opening.mp scanned
      -- What is scanned would be read.
      have read := readToken_opening_eq_some_iff.mpr ⟨inner, filled, open_inside, split, rfl⟩
      cases unread.symm.trans read
    · by_cases dollar : first = '$'
      · subst dollar
        cases (readToken_dollar opened).symm.trans unread
      · cases (readToken_text dollar).symm.trans unread

end Tokens

/-! ### All tokens -/

theorem readTokens_cons (first : Char) (tail : List Char) :
    readTokens (first :: tail) = (readToken (first :: tail)).bind fun found =>
      (readTokens found.2).map (found.1 :: ·) := by
  rw [readTokens]
  cases readToken (first :: tail) <;> rfl

theorem flatMap_source_of_readTokens {characters : List Char} {tokens : List MessageToken}
    (read : readTokens characters = some tokens) :
    tokens.flatMap MessageToken.source = characters := by
  induction characters using readTokens.induct generalizing tokens with
  | case1 =>
    simp only [readTokens, Option.some.injEq] at read
    rw [← read]
    rfl
  | case2 first tail unread => simp [readTokens_cons, unread] at read
  | case3 first tail token rest found ih =>
    simp only [readTokens_cons, found, Option.bind_some, Option.map_eq_some_iff] at read
    obtain ⟨further, read, rfl⟩ := read
    rw [List.flatMap_cons, ih read, (fronts_of_readToken found).append_source]

/-- A text can be scanned exactly if it is read, and the scan has the placeholders that are read. -/
theorem scans_iff (characters : List Char) (inners : List (List Char)) :
    Scans characters inners ↔
      ∃ tokens, readTokens characters = some tokens ∧
        tokens.filterMap MessageToken.inner? = inners := by
  induction characters using readTokens.induct generalizing inners with
  | case1 =>
    constructor
    · rintro ⟨⟩
      exact ⟨[], by simp [readTokens], rfl⟩
    · rintro ⟨tokens, read, rfl⟩
      simp only [readTokens, Option.some.injEq] at read
      rw [← read]
      exact .done
  | case2 first tail unread =>
    -- Where there is no token, there is no scan either.
    refine iff_of_false (not_scans_of_readToken unread (List.cons_ne_nil _ _)) ?_
    rintro ⟨tokens, read, -⟩
    simp [readTokens_cons, unread] at read
  | case3 first tail token rest found ih =>
    rw [(fronts_of_readToken found).scans]
    simp only [ih, readTokens_cons, found, Option.bind_some, Option.map_eq_some_iff]
    constructor
    · rintro ⟨inners', rfl, tokens, read, rfl⟩
      exact ⟨token :: tokens, ⟨tokens, read, rfl⟩, MessageToken.filterMap_inner?_cons token tokens⟩
    · rintro ⟨-, ⟨tokens, read, rfl⟩, rfl⟩
      exact ⟨_, MessageToken.filterMap_inner?_cons token tokens, tokens, read, rfl⟩

/-- A text is scanned in one way. -/
theorem Scans.unique {characters : List Char} {inners inners' : List (List Char)}
    (scanned : Scans characters inners) (scanned' : Scans characters inners') :
    inners = inners' := by
  obtain ⟨tokens, read, rfl⟩ := (scans_iff _ _).mp scanned
  obtain ⟨tokens', read', rfl⟩ := (scans_iff _ _).mp scanned'
  rw [Option.some.inj (read.symm.trans read')]

end Template

theorem readTemplate_eq_ok_iff {input : String} {tokens : List MessageToken} :
    readTemplate input = .ok tokens ↔ Template.readTokens input.toList = some tokens := by
  unfold readTemplate
  cases Template.readTokens input.toList <;> simp

/-- The written form of a placeholder, with its blanks. -/
def placeholderText (inner : List Char) : String :=
  String.ofList (MessageToken.placeholder inner).source

/-- The formula of the attribute path in a placeholder. -/
def placeholderFormula (inner : List Char) : Except PathError Formula :=
  Formula.ofPath (MessageToken.placeholder inner).content

namespace MessageTemplate

/-! ### Parts and values in turn -/

section Interleave

variable {parts rendered : List String}

theorem appendText_cons_cons (text part next : String) (rest : List String) :
    appendText text (part :: next :: rest) = part :: appendText text (next :: rest) :=
  rfl

theorem length_appendText (text : String) (parts : List String) :
    (appendText text parts).length = parts.length := by
  induction parts with
  | nil => rfl
  | cons part rest ih =>
    cases rest with
    | nil => rfl
    | cons next rest => rw [appendText_cons_cons, List.length_cons, ih]; rfl

theorem interleave_singleton (part : String) : interleave [part] [] = part := by
  simp [interleave, String.join]

theorem interleave_cons (part value : String) (parts rendered : List String) :
    interleave (part :: parts) (value :: rendered) = part ++ value ++ interleave parts rendered :=
  rfl

/-- With one part more than values the last part comes last. -/
theorem interleave_appendText (text : String) (one_more : parts.length = rendered.length + 1) :
    interleave (appendText text parts) rendered = interleave parts rendered ++ text := by
  induction parts generalizing rendered with
  | nil => cases one_more
  | cons part rest ih =>
    cases rest with
    | nil =>
      obtain rfl : rendered = [] := by simpa using one_more
      simp only [appendText, interleave_singleton]
    | cons next rest =>
      cases rendered with
      | nil => simp at one_more
      -- The first part and the first value come off on both sides.
      | cons value rendered =>
        rw [appendText_cons_cons, interleave_cons, ih (by simpa using one_more), interleave_cons,
          ← String.append_assoc]

/-- A value more calls for an empty part behind it. -/
theorem interleave_append (value : String) (one_more : parts.length = rendered.length + 1) :
    interleave (parts ++ [""]) (rendered ++ [value]) = interleave parts rendered ++ value := by
  induction parts generalizing rendered with
  | nil => cases one_more
  | cons part rest ih =>
    cases rendered with
    | nil =>
      obtain rfl : rest = [] := by simpa using one_more
      simp only [List.cons_append, List.nil_append, interleave_cons, interleave_singleton]
      exact String.append_empty
    | cons earlier rendered =>
      simp only [List.cons_append, interleave_cons, ih (by simpa using one_more),
        String.append_assoc]

end Interleave

/-! ### Reading a message -/

/-- The template was read from the text with these placeholders: it has their formulas and one part
more, and with the written placeholders between its parts it is the text again. -/
structure ReadFrom (template : MessageTemplate) (inners : List (List Char)) (text : List Char) :
    Prop where
  formulas : inners.mapM placeholderFormula = .ok template.formulas
  length_formulas : template.formulas.length = inners.length
  length_parts : template.parts.length = inners.length + 1
  format : template.format (inners.map placeholderText) = String.ofList text

section Reading

variable {template template' : MessageTemplate} {token : MessageToken}
  {inners : List (List Char)} {text : List Char}

theorem readFrom_nil : ReadFrom ⟨[""], []⟩ [] [] :=
  ⟨rfl, rfl, rfl, rfl⟩

theorem ReadFrom.appendText (read : ReadFrom template inners text) (characters : List Char) :
    ReadFrom { template with parts := appendText (String.ofList characters) template.parts } inners
      (text ++ characters) where
  formulas := read.formulas
  length_formulas := read.length_formulas
  length_parts := by rw [length_appendText, read.length_parts]
  format := by
    rw [String.ofList_append, ← read.format]
    exact interleave_appendText _ (by rw [read.length_parts, List.length_map])

theorem ReadFrom.placeholder (read : ReadFrom template inners text) {inner : List Char}
    {formula : Formula} (found : placeholderFormula inner = .ok formula) :
    ReadFrom ⟨template.parts ++ [""], template.formulas ++ [formula]⟩ (inners ++ [inner])
      (text ++ (MessageToken.placeholder inner).source) where
  formulas := by
    rw [List.mapM_append, read.formulas, List.mapM_cons, found]
    rfl
  length_formulas := by simp [read.length_formulas]
  length_parts := by simp [read.length_parts]
  format := by
    rw [String.ofList_append, ← read.format, List.map_append]
    exact interleave_append _ (by rw [read.length_parts, List.length_map])

theorem push_placeholder (template : MessageTemplate) (inner : List Char) :
    template.push (.placeholder inner) = (placeholderFormula inner).map fun formula =>
      ⟨template.parts ++ [""], template.formulas ++ [formula]⟩ := by
  rw [push, placeholderFormula]
  cases Formula.ofPath (MessageToken.placeholder inner).content <;> rfl

/-- Each token is appended to what the template spells. -/
theorem ReadFrom.push (read : ReadFrom template inners text)
    (pushed : template.push token = .ok template') :
    ReadFrom template' (inners ++ token.inner?.toList) (text ++ token.source) := by
  cases token with
  | text characters =>
    cases pushed
    rw [MessageToken.inner?, Option.toList_none, List.append_nil]
    exact read.appendText characters
  | placeholder inner =>
    rw [push_placeholder] at pushed
    cases found : placeholderFormula inner with
    | error failure => simp [found, Except.map] at pushed
    | ok formula =>
      simp only [found, Except.map, Except.ok.injEq] at pushed
      subst pushed
      exact read.placeholder found

theorem ReadFrom.foldlM_push {tokens : List MessageToken} (read : ReadFrom template inners text)
    (pushed : tokens.foldlM MessageTemplate.push template = .ok template') :
    ReadFrom template' (inners ++ tokens.filterMap MessageToken.inner?)
      (text ++ tokens.flatMap MessageToken.source) := by
  induction tokens generalizing template inners text with
  | nil =>
    cases pushed
    simpa using read
  | cons token rest ih =>
    rw [List.foldlM_cons] at pushed
    cases next : template.push token with
    | error failure => simp [next, bind, Except.bind] at pushed
    | ok between =>
      simp only [next, bind, Except.bind] at pushed
      -- The first token joins what has been read so far.
      rw [MessageToken.filterMap_inner?_cons, List.flatMap_cons, ← List.append_assoc,
        ← List.append_assoc]
      exact ih (read.push next) pushed

/-- Reading fails only at a placeholder that is no attribute path. -/
theorem exists_foldlM_push (template : MessageTemplate) {tokens : List MessageToken}
    (paths : ∀ inner ∈ tokens.filterMap MessageToken.inner?,
      ∃ formula, placeholderFormula inner = .ok formula) :
    ∃ template', tokens.foldlM MessageTemplate.push template = .ok template' := by
  induction tokens generalizing template with
  | nil => exact ⟨template, rfl⟩
  | cons token rest ih =>
    rw [List.foldlM_cons]
    cases token with
    | text characters => exact ih _ paths
    | placeholder inner =>
      obtain ⟨⟨formula, found⟩, others⟩ := List.forall_mem_cons.mp paths
      rw [push_placeholder, found]
      exact ih _ others

theorem ofText_of_readTemplate {input : String} {tokens : List MessageToken}
    (tokenized : readTemplate input = .ok tokens) :
    ofText input = tokens.foldlM MessageTemplate.push ⟨[""], []⟩ := by
  rw [ofText, tokenized]
  rfl

theorem readFrom_of_ofText {input : String} (read : ofText input = .ok template) :
    ∃ inners, Template.Scans input.toList inners ∧ template.ReadFrom inners input.toList := by
  cases tokenized : readTemplate input with
  | error failure =>
    rw [ofText, tokenized] at read
    cases read
  | ok tokens =>
    rw [ofText_of_readTemplate tokenized] at read
    rw [readTemplate_eq_ok_iff] at tokenized
    have spelled := readFrom_nil.foldlM_push read
    rw [List.nil_append, List.nil_append,
      Template.flatMap_source_of_readTokens tokenized] at spelled
    exact ⟨_, (Template.scans_iff _ _).mpr ⟨tokens, tokenized, rfl⟩, spelled⟩

end Reading

end MessageTemplate

/-! ### Templates -/

/-- Message templates are lossless. A text is split into tokens exactly if it can be scanned from
left to right with every opening followed by a character other than a closing brace and in the end
by a closing brace; the sources of the tokens are then the text, and their placeholders those of the
scan. A message is read if all these placeholders are attribute paths. Whenever one is read, it has
their formulas and one part more, and formatted with the written placeholders it is the text. -/
theorem templates_are_lossless (input : String) :
    ((∃ tokens, readTemplate input = .ok tokens) ↔ ∃ inners, Template.Scans input.toList inners) ∧
    (∀ tokens, readTemplate input = .ok tokens →
      String.ofList (tokens.flatMap MessageToken.source) = input ∧
      Template.Scans input.toList (tokens.filterMap MessageToken.inner?)) ∧
    (∀ inners, Template.Scans input.toList inners →
      (∀ inner ∈ inners, ∃ formula, placeholderFormula inner = .ok formula) →
      ∃ template, MessageTemplate.ofText input = .ok template) ∧
    ∀ template, MessageTemplate.ofText input = .ok template →
      ∃ inners, Template.Scans input.toList inners ∧
        inners.mapM placeholderFormula = .ok template.formulas ∧
        template.parts.length = template.formulas.length + 1 ∧
        template.format (inners.map placeholderText) = input := by
  refine ⟨?succeeds, fun tokens read => ?spelled, fun inners scanned paths => ?read,
    fun template read => ?formatted⟩
  case succeeds =>
    simp only [readTemplate_eq_ok_iff, Template.scans_iff]
    exact ⟨fun ⟨tokens, read⟩ => ⟨_, tokens, read, rfl⟩, fun ⟨_, tokens, read, _⟩ => ⟨tokens, read⟩⟩
  case spelled =>
    rw [readTemplate_eq_ok_iff] at read
    rw [Template.flatMap_source_of_readTokens read, String.ofList_toList]
    exact ⟨rfl, (Template.scans_iff _ _).mpr ⟨tokens, read, rfl⟩⟩
  case read =>
    -- The placeholders of the scan are those of the tokens, so none of them fails.
    obtain ⟨tokens, tokenized, rfl⟩ := (Template.scans_iff _ _).mp scanned
    rw [MessageTemplate.ofText_of_readTemplate (readTemplate_eq_ok_iff.mpr tokenized)]
    exact MessageTemplate.exists_foldlM_push _ paths
  case formatted =>
    obtain ⟨inners, scanned, spelled⟩ := MessageTemplate.readFrom_of_ofText read
    refine ⟨inners, scanned, spelled.formulas, ?_, ?_⟩
    · rw [spelled.length_parts, spelled.length_formulas]
    · rw [spelled.format, String.ofList_toList]

theorem templates_are_lossless_of_dollars :
    readTemplate "$$\x7b a \x7d$" = .ok [.text ['$'], .placeholder [' ', 'a', ' '], .text ['$']] ∧
    Template.Scans "$$\x7b a \x7d$".toList [[' ', 'a', ' ']] ∧
    ∃ template, MessageTemplate.ofText "$$\x7b a \x7d$" = .ok template ∧
      template.parts.length = template.formulas.length + 1 ∧
      template.format [placeholderText [' ', 'a', ' ']] = "$$\x7b a \x7d$" := by
  have read : readTemplate "$$\x7b a \x7d$" =
      .ok [.text ['$'], .placeholder [' ', 'a', ' '], .text ['$']] := by cbv
  obtain ⟨-, spelled, succeeds, formatted⟩ := templates_are_lossless "$$\x7b a \x7d$"
  have scanned : Template.Scans "$$\x7b a \x7d$".toList [[' ', 'a', ' ']] := (spelled _ read).2
  have path : ∃ formula, placeholderFormula [' ', 'a', ' '] = .ok formula := by
    have valid : (placeholderFormula [' ', 'a', ' ']).isOk = true := by decide +kernel
    cases read : placeholderFormula [' ', 'a', ' '] with
    | error failure => cases read ▸ valid
    | ok formula => exact ⟨formula, rfl⟩
  obtain ⟨template, found⟩ := succeeds _ scanned (by simpa using path)
  obtain ⟨inners, scanned', -, one_more, format⟩ := formatted template found
  obtain rfl := scanned'.unique scanned
  exact ⟨read, scanned, template, found, one_more, format⟩

example : readTemplate "$\x7b\x7d" = .error ⟨"$\x7b\x7d", .unparsed .template⟩ := by
  cbv

end Rulebook
