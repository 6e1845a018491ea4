import Rulebook.Context.Basic
import Rulebook.Rule.Basic
import Rulebook.Text.Blank

/-!
# Rule sets

A rule set is built from declarations of rules, contexts and entry points. It is refused if a rule
lacks a payload, if two rules or two entry points share a name, if a target path is blank, or if an
entry point names a rule that does not exist. Missing payloads are reported before everything
else, and faults of rules before faults of entry points.
-/
namespace Rulebook

/-- A rule as it is declared: its payload may still be missing. -/
structure RuleDraft where
  name : String
  target : Attribute
  reads : List Attribute := []
  condition : Option Formula := none
  payload : Option Payload := none
  message : Option MessageTemplate := none

inductive Declaration where
  | rule (draft : RuleDraft)
  | context (definition : ContextDefinition)
  | entryPoint (name : String) (members : List String)

inductive RuleSetError where
  | duplicateRule (name : String)
  | missingPayload (rule : String)
  | undefinedMember (entryPoint rule : String)
  | duplicateEntryPoint (name : String)
  | emptyTarget (rule : String)
deriving DecidableEq, Repr

def RuleSetError.message : RuleSetError → String
  | .duplicateRule name => "duplicate rule name '" ++ name ++ "'"
  | .missingPayload rule => "rule '" ++ rule ++ "' has no payload"
  | .undefinedMember entryPoint rule =>
    "entry point '" ++ entryPoint ++ "' references undefined rule '" ++ rule ++ "'"
  | .duplicateEntryPoint name => "duplicate entry point '" ++ name ++ "'"
  | .emptyTarget rule => "rule '" ++ rule ++ "' has an empty target path"

structure RuleSet where
  rules : List Rule
  contexts : ContextTable
  entryPoints : Table (List String)

/-- Completes a draft. -/
def RuleDraft.complete (draft : RuleDraft) : Except RuleSetError Rule :=
  match draft.payload with
  | some payload =>
    .ok ⟨draft.name, draft.target, draft.reads, draft.condition, payload, draft.message⟩
  | none => .error (.missingPayload draft.name)

namespace RuleSet

def drafts (declarations : List Declaration) : List RuleDraft :=
  declarations.filterMap fun
    | .rule draft => some draft
    | _ => none

def definitions (declarations : List Declaration) : List ContextDefinition :=
  declarations.filterMap fun
    | .context definition => some definition
    | _ => none

def groups (declarations : List Declaration) : List (String × List String) :=
  declarations.filterMap fun
    | .entryPoint name members => some (name, members)
    | _ => none

/-- Checks the rules one after another against the names before them. -/
def checkRules (earlier : List String) : List Rule → Except RuleSetError Unit
  | [] => .ok ()
  | rule :: rules =>
    if rule.name ∈ earlier then .error (.duplicateRule rule.name)
    else if trimText rule.target.path = "" then .error (.emptyTarget rule.name)
    else checkRules (rule.name :: earlier) rules

/-- Checks the entry points one after another; their members before their names. -/
def checkGroups (names : List String) (earlier : List String) :
    List (String × List String) → Except RuleSetError Unit
  | [] => .ok ()
  | (name, members) :: groups =>
    match members.find? (· ∉ names) with
    | some rule => .error (.undefinedMember name rule)
    | none =>
      if name ∈ earlier then .error (.duplicateEntryPoint name)
      else checkGroups names (name :: earlier) groups

/-- Builds a rule set. -/
def ofDeclarations (declarations : List Declaration) : Except RuleSetError RuleSet := do
  -- Drafts are completed before any name is compared.
  let rules ← (drafts declarations).mapM RuleDraft.complete
  checkRules [] rules
  checkGroups (rules.map (·.name)) [] (groups declarations)
  return ⟨rules, (definitions declarations).foldl ContextTable.define [],
    groups declarations⟩

/-- The rule of a name. -/
def rule? (set : RuleSet) (name : String) : Option Rule :=
  set.rules.find? (·.name = name)

/-- The definition of a context. -/
def definition? (set : RuleSet) (name : String) : Option ContextDefinition :=
  Table.find? name set.contexts

def isEmpty (set : RuleSet) : Bool :=
  set.rules.isEmpty

/-- A short description of the size of the set. -/
def text (set : RuleSet) : String :=
  "RuleSet(" ++ toString set.rules.length ++ " rules, " ++ toString set.contexts.length
    ++ " contexts, " ++ toString set.entryPoints.length ++ " entry points)"

end RuleSet

end Rulebook
