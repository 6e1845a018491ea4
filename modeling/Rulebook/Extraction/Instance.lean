import Rulebook.Extraction.Adapter

/-!
# Extracted instances

The data instances that a rule is evaluated against are the leaves of a navigated value: nested
collections are taken apart in order, and nulls are dropped at every depth. An instance is named by
its own identity, or by where it was found.
-/
namespace Rulebook

/-- A value, the place it was found at, and its key in the innermost collection. -/
structure Instance where
  value : Value
  origin : String
  key : Option ElementKey

namespace Instance

/-- An entity with an identity is named by it, anything else by its place. -/
def id (found : Instance) : String :=
  match found.value with
  | .entity typeName (some identity) _ => typeName ++ ":" ++ identity
  | _ => found.origin

def context (found : Instance) : String :=
  found.value.typeName

end Instance

namespace AdapterRegistry

/-- Takes a collection apart; the place of an element is that of its collection and its key. -/
def leaves (registry : AdapterRegistry) [registry.HandsOutParts] (origin : String)
    (collection : Value) : Except InstanceError (List Instance) :=
  match _iterated : registry.iterate collection with
  | .error failure => .error failure
  | .ok elements => do
    let found ← elements.attach.mapM fun ⟨(key, element), _member⟩ =>
      let place := origin ++ key.text
      -- A collection is taken apart as it is; only other elements are unwrapped.
      if element.isNull then .ok []
      else if element.shape.isCollection then registry.leaves place element
      else
        match _unwrapped : registry.unwrap element with
        | none => .ok []
        | some value =>
          if value.shape.isCollection then registry.leaves place value
          else .ok [⟨value, place, some key⟩]
    return found.flatten
termination_by sizeOf collection
decreasing_by
  · exact registry.iterate_size ‹_› ‹_›
  · have inner : sizeOf element < sizeOf collection := registry.iterate_size ‹_› ‹_›
    exact Nat.lt_of_le_of_lt (registry.unwrap_size ‹_›) inner

/-- The instances in a value: its leaves if it is a collection, else the value itself. -/
def extract (registry : AdapterRegistry) [registry.HandsOutParts] (value : Value)
    (origin : String) : Except InstanceError (List Instance) :=
  match registry.unwrap value with
  | none => .ok []
  | some value =>
    if value.shape.isCollection then registry.leaves origin value
    else .ok [⟨value, origin, none⟩]

/-- The single instance that an evaluation starts from. -/
def root (registry : AdapterRegistry) (root : Value) : Except InstanceError Instance :=
  if root.shape.isCollection then .error (.collectionRoot root.typeName)
  else
    match registry.unwrap root with
    | none => .error .absentRoot
    | some value =>
      if value.shape.isCollection then .error (.collectionRoot value.typeName)
      else .ok ⟨value, value.typeName, none⟩

end AdapterRegistry

end Rulebook
