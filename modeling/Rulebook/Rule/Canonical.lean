import Rulebook.Digest.Bytes
import Rulebook.Rule.RuleSet

/-!
# Canonical bytes

The content of a rule set as bytes: its rules and its contexts, but not its entry points. Every
list and text stands behind its length, and every alternative begins with a number of its own, so
different contents have different bytes. Numbers count by their value, not by their places.
-/
namespace Rulebook

/-- The places and the sign, and then twelve bytes of the mantissa, all without trailing zeros. -/
def Decimal.bytes (number : Decimal) : Bytes :=
  let trimmed := number.trim
  [0, 0, UInt8.ofNat trimmed.scale, if trimmed.mantissa < 0 then 0x80 else 0]
    ++ Bytes.littleEndian 12 trimmed.mantissa.natAbs

namespace Value

mutual

def bytes : Value → Bytes
  | null => [0]
  | bool truth => [1, if truth then 1 else 0]
  | number amount => 2 :: amount.bytes
  | text characters => 3 :: Bytes.ofText characters
  | date day => 4 :: Bytes.ofText day.text
  | dateTime moment => 5 :: Bytes.ofText moment.fullText
  | money amount currency => 6 :: (amount.bytes ++ Bytes.ofText currency)
  | list items => 7 :: (Bytes.ofCount items.length ++ itemBytes items)
  | map entries => 8 :: (Bytes.ofCount entries.length ++ entryBytes entries)
  | absent => [9, 0]
  | present inner => 9 :: 1 :: bytes inner
  | entity typeName identity fields =>
    10 :: (Bytes.ofText typeName ++ Bytes.ofOption Bytes.ofText identity
      ++ Bytes.ofCount fields.length ++ entryBytes fields)

def itemBytes : List Value → Bytes
  | [] => []
  | item :: items => bytes item ++ itemBytes items

def entryBytes : List (String × Value) → Bytes
  | [] => []
  | (name, value) :: entries => Bytes.ofText name ++ bytes value ++ entryBytes entries

end

end Value

def UnaryOperator.code : UnaryOperator → UInt8
  | .negate => 0
  | .not => 1

def BinaryOperator.code : BinaryOperator → UInt8
  | .add => 0
  | .subtract => 1
  | .multiply => 2
  | .divide => 3
  | .modulus => 4
  | .power => 5
  | .equal => 6
  | .unequal => 7
  | .less => 8
  | .lessOrEqual => 9
  | .greater => 10
  | .greaterOrEqual => 11
  | .and => 12
  | .or => 13
  | .within => 14

def Quantifier.code : Quantifier → UInt8
  | .some => 0
  | .every => 1

namespace Expression

mutual

def bytes : Expression → Bytes
  | literal value => 0 :: value.bytes
  | this => [1]
  | identifier name => 2 :: Bytes.ofText name
  | property base name => 3 :: (bytes base ++ Bytes.ofText name)
  | index base position => 4 :: (bytes base ++ bytes position)
  | unary operator operand => 5 :: operator.code :: bytes operand
  | binary operator left right => 6 :: operator.code :: (bytes left ++ bytes right)
  | call function arguments =>
    7 :: (Bytes.ofText function ++ Bytes.ofCount arguments.length ++ itemBytes arguments)
  | collection items => 8 :: (Bytes.ofCount items.length ++ itemBytes items)
  | filter source predicate => 9 :: (bytes source ++ bytes predicate)
  | forEach bound source body => 10 :: (Bytes.ofText bound ++ bytes source ++ bytes body)
  | quantified quantifier bound source predicate =>
    11 :: quantifier.code :: (Bytes.ofText bound ++ bytes source ++ bytes predicate)
  -- Both kinds of conditional share a number; the byte behind them tells them apart.
  | ifThen condition consequence => 12 :: (bytes condition ++ bytes consequence ++ [0])
  | ifThenElse condition consequence alternative =>
    12 :: (bytes condition ++ bytes consequence ++ 1 :: bytes alternative)
  | instanceOf operand typeName => 13 :: (bytes operand ++ Bytes.ofText typeName)
  | cast typeName operand => 14 :: (Bytes.ofText typeName ++ bytes operand)

def itemBytes : List Expression → Bytes
  | [] => []
  | item :: items => bytes item ++ itemBytes items

end

end Expression

def Reference.bytes (reference : Reference) : Bytes :=
  Bytes.ofText reference.name ++ [if reference.crossContext then 1 else 0]

def Formula.bytes (formula : Formula) : Bytes :=
  formula.expression.bytes ++ Bytes.ofList Reference.bytes formula.references

def MessageTemplate.bytes (template : MessageTemplate) : Bytes :=
  Bytes.ofList Bytes.ofText template.parts ++ Bytes.ofList Formula.bytes template.formulas

def Attribute.bytes (target : Attribute) : Bytes :=
  Bytes.ofText target.context ++ Bytes.ofText target.path

def NumberSet.bytes (set : NumberSet) : Bytes :=
  Bytes.ofOption Decimal.bytes set.lower ++ Bytes.ofOption Decimal.bytes set.upper
    ++ Bytes.ofOption Decimal.bytes set.step

def Payload.bytes : Payload → Bytes
  | .assertion formula => 0 :: formula.bytes
  | .default formula => 1 :: formula.bytes
  | .reset formula => 2 :: formula.bytes
  | .numberSet set => 3 :: set.bytes

def Rule.bytes (rule : Rule) : Bytes :=
  Bytes.ofText rule.name ++ rule.target.bytes ++ Bytes.ofList Attribute.bytes rule.reads
    ++ Bytes.ofOption Formula.bytes rule.condition ++ rule.payload.bytes
    ++ Bytes.ofOption MessageTemplate.bytes rule.message

/-- Entries whose values are names. -/
def Table.textBytes (entries : Table String) : Bytes :=
  Bytes.ofList (fun (name, value) => Bytes.ofText name ++ Bytes.ofText value) entries

def ContextDefinition.bytes (definition : ContextDefinition) : Bytes :=
  Bytes.ofText definition.name ++ Bytes.ofList Bytes.ofText definition.ancestors
    ++ Table.textBytes definition.children ++ Table.textBytes definition.fields

/-- The bytes that decide which version of a rule set this is. -/
def RuleSet.bytes (set : RuleSet) : Bytes :=
  Bytes.ofList Rule.bytes set.rules
    ++ Bytes.ofList (fun (_, definition) => ContextDefinition.bytes definition) set.contexts

end Rulebook
