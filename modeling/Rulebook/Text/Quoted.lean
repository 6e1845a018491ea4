import Rulebook.Text.Case
import Rulebook.Text.PrintableTable

/-!
# Quoted text

A text between double quotes in which a quote, a backslash and everything without a visible form
of its own is escaped, so that a listing of names stays on one line.
-/
namespace Rulebook

def isPrintable (character : Char) : Bool :=
  !inRanges unprintableRanges character.toNat && !inRanges graphemeExtenderRanges character.toNat

/-- The written form of one character inside quotes. -/
def escapeChar (character : Char) : List Char :=
  match character with
  | '\x00' => ['\\', '0']
  | '\t' => ['\\', 't']
  | '\r' => ['\\', 'r']
  | '\n' => ['\\', 'n']
  | '"' => ['\\', '"']
  | '\\' => ['\\', '\\']
  | _ =>
    if isPrintable character then [character]
    else ['\\', 'u', '{'] ++ Nat.toDigits 16 character.toNat ++ ['}']

def quoteText (text : String) : String :=
  String.ofList ('"' :: text.toList.flatMap escapeChar ++ ['"'])

/-- A list of quoted texts in square brackets. -/
def quoteTexts (texts : List String) : String :=
  "[" ++ ", ".intercalate (texts.map quoteText) ++ "]"

end Rulebook
