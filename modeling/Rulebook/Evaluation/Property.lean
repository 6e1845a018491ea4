import Rulebook.Evaluation.Failure

/-!
# Properties

Reading a property of an entity needs its declaration, a map has null for a key it lacks, and a
list is projected: the properties of its elements, with lists among them spread out and nulls
dropped. Null has null as every property. Writing changes a declared field or any key of a map.
-/
namespace Rulebook

namespace Value

/-- What one element adds to a projection. -/
def spread : Value → List Value
  | null => []
  | list items => items
  | value => [value]

mutual

/-- The property of a value. -/
def getProperty (name : String) : Value → Except PropertyError Value
  | null | absent => .ok null
  | present inner => getProperty name inner
  | map entries => .ok ((Table.find? name entries).getD null)
  | entity typeName _ fields =>
    match Table.find? name fields with
    | some value => .ok value
    | none => .error (.undefined name typeName)
  -- A list has the properties of its elements.
  | list items => (projectAll name items).map list
  | money amount currency =>
    if name = "amount" then .ok (number amount)
    else if name = "currency" then .ok (text currency)
    else .error (.undefined name "Money")
  | bool truth => .error (.notAnObject name (bool truth).typeName)
  | number amount => .error (.notAnObject name (number amount).typeName)
  | text characters => .error (.notAnObject name (text characters).typeName)
  | date day => .error (.notAnObject name (date day).typeName)
  | dateTime moment => .error (.notAnObject name (dateTime moment).typeName)

/-- The properties of the elements of a list; the first element without one is reported. -/
def projectAll (name : String) : List Value → Except PropertyError (List Value)
  | [] => .ok []
  | item :: items => do
    let found ← getProperty name item
    let rest ← projectAll name items
    -- Only the elements of a list found are spread out; nulls among them stay.
    return spread found ++ rest

end

/-- The value with one of its properties replaced, or set for the first time in a map. -/
def setProperty (name : String) (value : Value) : Value → Except PropertyError Value
  | present inner => (setProperty name value inner).map present
  | map entries => .ok (map (Table.set name value entries))
  | entity typeName identity fields =>
    -- Fields are never added to an entity.
    if (Table.find? name fields).isSome then
      .ok (entity typeName identity (Table.set name value fields))
    else .error (.undefined name typeName)
  | other => .error (.notAnObject name other.typeName)

end Value

/-- A way of reading and writing properties. -/
structure PropertyAccess where
  get : (object : Value) → (name : String) → Except PropertyError Value
  set : (object : Value) → (name : String) → (value : Value) → Except PropertyError Value

namespace PropertyAccess

/-- Properties have to be declared. -/
def standard : PropertyAccess where
  get object name := object.getProperty name
  set object name value := Value.setProperty name value object

/-- What is not declared reads as null and is passed over in writing. -/
def lenient : PropertyAccess where
  get object name :=
    match object.getProperty name with
    | .error (.undefined _ _) => .ok .null
    | result => result
  set object name value :=
    match Value.setProperty name value object with
    | .error (.undefined _ _) => .ok object
    | result => result

end PropertyAccess

end Rulebook
