import Rulebook.Path.Basic

/-!
# Tokens of a message template

A template is text with placeholders: a dollar sign and an opening brace, at least one character
that is no closing brace, and a closing brace. A dollar sign before any other character is text.
-/
namespace Rulebook

/-- A stretch of text, or a placeholder with exactly what stands between its braces. -/
inductive MessageToken where
  | text (characters : List Char)
  | placeholder (inner : List Char)
deriving DecidableEq, Repr

namespace MessageToken

/-- What the token was read from. -/
def source : MessageToken → List Char
  | text characters => characters
  | placeholder inner => '$' :: '\x7b' :: inner ++ ['\x7d']

/-- The text of a token; blanks at the ends of a placeholder do not count. -/
def content : MessageToken → String
  | text characters => String.ofList characters
  | placeholder inner => String.ofList (trimChars inner)

end MessageToken

namespace Template

/-- Splits a token off the front: none when a placeholder is opened and not properly closed. -/
def readToken : List Char → Option (MessageToken × List Char)
  | [] => none
  | '$' :: '\x7b' :: rest =>
    match rest.takeWhile (· != '\x7d'), rest.dropWhile (· != '\x7d') with
    | [], _ => none
    | _, [] => none
    | inner, _ :: rest => some (.placeholder inner, rest)
  | '$' :: rest => some (.text ['$'], rest)
  | character :: rest =>
    some (.text (character :: rest.takeWhile (· != '$')), rest.dropWhile (· != '$'))

theorem readToken_length {characters rest : List Char} {token : MessageToken}
    (read : readToken characters = some (token, rest)) : rest.length < characters.length := by
  unfold readToken at read
  split at read
  · simp at read
  · next tail =>
    have bound := Path.dropWhile_length_le (· != '\x7d') tail
    split at read
    · simp at read
    · simp at read
    · next after equal _ =>
      simp only [Option.some.injEq, Prod.mk.injEq] at read
      rw [equal] at bound
      simp only [← read.2, List.length_cons] at bound ⊢
      omega
  · simp only [Option.some.injEq, Prod.mk.injEq] at read
    simp [← read.2]
  · next character tail _ _ =>
    simp only [Option.some.injEq, Prod.mk.injEq] at read
    have := Path.dropWhile_length_le (· != '$') tail
    simp only [← read.2, List.length_cons]
    omega

/-- Reads tokens up to the end. -/
def readTokens (characters : List Char) : Option (List MessageToken) :=
  match characters with
  | [] => some []
  | character :: tail =>
    match _read : readToken (character :: tail) with
    | none => none
    | some (token, rest) => (readTokens rest).map (token :: ·)
termination_by characters.length
decreasing_by exact readToken_length (by assumption)

end Template

/-- Splits a template into its tokens. -/
def readTemplate (input : String) : Except PathError (List MessageToken) :=
  match Template.readTokens input.toList with
  | some tokens => .ok tokens
  | none => .error ⟨input, .unparsed .template⟩

end Rulebook
