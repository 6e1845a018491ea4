import Rulebook.Arithmetic.Kernel
import Rulebook.Calendar.DateTime
import Rulebook.Table

/-!
# Values

The data that rules read and write: scalars, money, lists, maps, optional values and entities. An
optional value is a layer of its own around the value it holds, and reading usually looks through
all such layers.
-/
namespace Rulebook

/-- A dynamically typed value. Maps and entity fields keep the order of their entries; an entity
may lack an identity. -/
inductive Value where
  | null
  | bool (truth : Bool)
  | number (amount : Decimal)
  | text (characters : String)
  | date (day : Date)
  | dateTime (moment : DateTime)
  | money (amount : Decimal) (currency : String)
  | list (items : List Value)
  | map (entries : List (String × Value))
  | absent
  | present (inner : Value)
  | entity (typeName : String) (identity : Option String) (fields : List (String × Value))

namespace Value

instance : Inhabited Value := ⟨null⟩

/-- An amount of money is held in normal form. -/
def ofMoney (amount : Decimal) (currency : String) : Value :=
  money (normalize amount) currency

/-- A number in normal form. -/
def ofDecimal (amount : Decimal) : Value :=
  number (normalize amount)

/-- A count as a number. A count that no decimal holds does not occur as the size of a text or a
collection; it would be zero here. -/
def ofCount (count : Nat) : Value :=
  ofDecimal ((Decimal.ofNat? count).getD .zero)

def isNull : Value → Bool
  | null => true
  | _ => false

/-- The numeric component of a number or of money. -/
def number? : Value → Option Decimal
  | number amount => some amount
  | money amount _ => some amount
  | _ => none

def bool? : Value → Option Bool
  | bool truth => some truth
  | _ => none

def text? : Value → Option String
  | text characters => some characters
  | _ => none

/-- The name of the type; an entity has a type of its own. -/
def typeName : Value → String
  | null => "Null"
  | bool _ => "Boolean"
  | number _ => "Number"
  | text _ => "String"
  | date _ => "Date"
  | dateTime _ => "DateTime"
  | money _ _ => "Money"
  | list _ => "List"
  | map _ => "Map"
  | absent | present _ => "Optional"
  | entity typeName _ _ => typeName

/-- Looks through all optional layers; an empty one is null. -/
def bare : Value → Value
  | present inner => bare inner
  | absent => null
  | value => value

/-- How a value is made up, as far as collections and layers go. -/
inductive Shape where
  | scalar
  | sequence
  | associative
  | wrapped
deriving DecidableEq, Repr

def Shape.name : Shape → String
  | .scalar => "scalar"
  | .sequence => "sequence"
  | .associative => "associative"
  | .wrapped => "wrapped"

def Shape.isCollection : Shape → Bool
  | .sequence | .associative => true
  | .scalar | .wrapped => false

def shape : Value → Shape
  | list _ => .sequence
  | map _ => .associative
  | absent | present _ => .wrapped
  | _ => .scalar

end Value

end Rulebook
