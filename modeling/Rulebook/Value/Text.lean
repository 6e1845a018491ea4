import Rulebook.Calendar.Format
import Rulebook.Value.Basic

/-!
# Written values

`display` writes a value for diagnostics, so that its kind can be told; `render` writes it for the
reader of a message, where absent values are empty and texts and amounts stand bare.
-/
namespace Rulebook.Value

/-- An entity is shown by its type, and its identity if it has one. -/
def entityText (typeName : String) : Option String → String
  | some identity => typeName ++ "#" ++ identity
  | none => typeName

mutual

/-- The written form of a value in diagnostics. -/
def display : Value → String
  | null => "null"
  | bool truth => if truth then "true" else "false"
  | number amount => Arithmetic.toPlain amount
  | text characters => "\"" ++ characters ++ "\""
  | date day => day.text
  | dateTime moment => moment.text "T"
  | money amount currency => Arithmetic.toPlain amount ++ " " ++ currency
  | list items => "[" ++ ", ".intercalate (displayItems items) ++ "]"
  | map entries => "\x7b" ++ ", ".intercalate (displayEntries entries) ++ "\x7d"
  | absent => "None"
  | present inner => "Some(" ++ display inner ++ ")"
  | entity typeName identity _ => entityText typeName identity

def displayItems : List Value → List String
  | [] => []
  | item :: items => display item :: displayItems items

def displayEntries : List (String × Value) → List String
  | [] => []
  | (key, value) :: entries => (key ++ ": " ++ display value) :: displayEntries entries

end

mutual

/-- The written form of a value in messages. -/
def render : Value → String
  | null | absent => ""
  | present inner => render inner
  | bool truth => if truth then "true" else "false"
  | number amount | money amount _ => Arithmetic.toPlain amount
  | text characters => characters
  | date day => day.text
  | dateTime moment => moment.text " "
  | list items => "[" ++ ", ".intercalate (renderItems items) ++ "]"
  | map entries => "\x7b" ++ ", ".intercalate (renderEntries entries) ++ "\x7d"
  | entity typeName identity _ => entityText typeName identity

def renderItems : List Value → List String
  | [] => []
  | item :: items => render item :: renderItems items

def renderEntries : List (String × Value) → List String
  | [] => []
  | (key, value) :: entries => (key ++ ": " ++ render value) :: renderEntries entries

end

end Rulebook.Value
