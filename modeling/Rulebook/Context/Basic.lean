import Rulebook.Table

/-!
# Context definitions

A context is a type of data that rules speak about: it may inherit from other contexts, lead to
children, and have fields. A definition is built up from declarations; an ancestor is declared
once however often it is named, a child or field keeps its place and takes the last type.
-/
namespace Rulebook

structure ContextDefinition where
  name : String
  ancestors : List String := []
  children : Table String := []
  fields : Table String := []
deriving DecidableEq

namespace ContextDefinition

/-- Declares an ancestor. -/
def inherit (definition : ContextDefinition) (ancestor : String) : ContextDefinition :=
  if ancestor ∈ definition.ancestors then definition
  else { definition with ancestors := definition.ancestors ++ [ancestor] }

/-- Declares a child by its name and the context it leads to. -/
def child (definition : ContextDefinition) (name context : String) : ContextDefinition :=
  { definition with children := Table.set name context definition.children }

/-- Declares a field by its name and type. -/
def field (definition : ContextDefinition) (name typeName : String) : ContextDefinition :=
  { definition with fields := Table.set name typeName definition.fields }

end ContextDefinition

/-- Context definitions by name. -/
abbrev ContextTable := Table ContextDefinition

/-- Adds a definition; an earlier one of the same name is replaced in place. -/
def ContextTable.define (contexts : ContextTable) (definition : ContextDefinition) :
    ContextTable :=
  Table.set definition.name definition contexts

end Rulebook
