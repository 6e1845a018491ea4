import Rulebook.Path.Basic
import Rulebook.Value.Text

/-!
# Expressions

The expressions of conditions, assertions and values: navigation from the data, operators, function
calls, and the three kinds of comprehension. A filter makes each element the object in scope, the
other comprehensions bind a name to it.
-/
namespace Rulebook

inductive UnaryOperator where
  | negate
  | not
deriving DecidableEq, Repr

def UnaryOperator.symbol : UnaryOperator → String
  | .negate => "-"
  | .not => "!"

inductive BinaryOperator where
  | add
  | subtract
  | multiply
  | divide
  | modulus
  | power
  | equal
  | unequal
  | less
  | lessOrEqual
  | greater
  | greaterOrEqual
  | and
  | or
  | within
deriving DecidableEq, Repr

def BinaryOperator.symbol : BinaryOperator → String
  | .add => "+"
  | .subtract => "-"
  | .multiply => "*"
  | .divide => "/"
  | .modulus => "%"
  | .power => "**"
  | .equal => "=="
  | .unequal => "!="
  | .less => "<"
  | .lessOrEqual => "<="
  | .greater => ">"
  | .greaterOrEqual => ">="
  | .and => "and"
  | .or => "or"
  | .within => "in"

inductive Quantifier where
  | some
  | every
deriving DecidableEq, Repr

def Quantifier.word : Quantifier → String
  | .some => "some"
  | .every => "every"

inductive Expression where
  | literal (value : Value)
  | this
  | identifier (name : String)
  | property (base : Expression) (name : String)
  | index (base position : Expression)
  | unary (operator : UnaryOperator) (operand : Expression)
  | binary (operator : BinaryOperator) (left right : Expression)
  | call (function : String) (arguments : List Expression)
  | collection (items : List Expression)
  | filter (source predicate : Expression)
  | forEach (bound : String) (source body : Expression)
  | quantified (quantifier : Quantifier) (bound : String) (source predicate : Expression)
  | ifThen (condition consequence : Expression)
  | ifThenElse (condition consequence alternative : Expression)
  | instanceOf (operand : Expression) (typeName : String)
  | cast (typeName : String) (operand : Expression)

namespace Expression

instance : Inhabited Expression := ⟨this⟩

mutual

/-- The written form, as it stands in messages about the expression. -/
def text : Expression → String
  | literal value => value.display
  | this => "this"
  | identifier name => name
  | property base name => text base ++ "." ++ name
  | index base position => text base ++ "[" ++ text position ++ "]"
  | unary operator operand => operator.symbol ++ text operand
  | binary operator left right =>
    "(" ++ text left ++ " " ++ operator.symbol ++ " " ++ text right ++ ")"
  | call function arguments => function ++ "(" ++ ", ".intercalate (texts arguments) ++ ")"
  | collection items => "\x7b" ++ ", ".intercalate (texts items) ++ "\x7d"
  | filter source predicate => text source ++ "[" ++ text predicate ++ "]"
  | forEach bound source body =>
    "for " ++ bound ++ " in " ++ text source ++ " return " ++ text body
  | quantified quantifier bound source predicate =>
    quantifier.word ++ " " ++ bound ++ " in " ++ text source ++ " satisfies " ++ text predicate
  | ifThen condition consequence => "if " ++ text condition ++ " then " ++ text consequence
  | ifThenElse condition consequence alternative =>
    "if " ++ text condition ++ " then " ++ text consequence ++ " else " ++ text alternative
  | instanceOf operand typeName => text operand ++ " instanceof " ++ typeName
  | cast typeName operand => "(" ++ typeName ++ ") " ++ text operand

def texts : List Expression → List String
  | [] => []
  | expression :: expressions => text expression :: texts expressions

end

mutual

/-- How many levels deep the expression is; a leaf is one level. -/
def height : Expression → Nat
  | literal _ | this | identifier _ => 1
  | property base _ => height base + 1
  | index base position => max (height base) (height position) + 1
  | unary _ operand => height operand + 1
  | binary _ left right => max (height left) (height right) + 1
  | call _ arguments => heights arguments + 1
  | collection items => heights items + 1
  | filter source predicate => max (height source) (height predicate) + 1
  | forEach _ source body => max (height source) (height body) + 1
  | quantified _ _ source predicate => max (height source) (height predicate) + 1
  | ifThen condition consequence => max (height condition) (height consequence) + 1
  | ifThenElse condition consequence alternative =>
    max (height condition) (max (height consequence) (height alternative)) + 1
  | instanceOf operand _ => height operand + 1
  | cast _ operand => height operand + 1

def heights : List Expression → Nat
  | [] => 0
  | expression :: expressions => max (height expression) (heights expressions)

end

theorem height_pos (expression : Expression) : 0 < expression.height := by
  cases expression <;> simp only [height, Nat.zero_lt_succ]

/-- The literal of a position; one beyond the signed 64-bit range is cut to its end. -/
def positionLiteral (position : Nat) : Expression :=
  literal (.number (.ofInteger (min position 0x7fffffff_ffffffff : Nat) (by omega)))

/-- Navigates one step further. -/
def step (base : Expression) : PathStep → Expression
  | .property name => property base name
  | .index position => index base (positionLiteral position)
  | .key name => index base (literal (.text name))

/-- The navigation along the steps of a path; only a property can start one. -/
def ofSteps : List PathStep → Except PathFault Expression
  | .property root :: steps => .ok (steps.foldl step (identifier root))
  | other :: _ => .error (.unexpected other)
  | [] => .error .empty

/-- The navigation that a path denotes. -/
def ofPath (path : String) : Except PathError Expression := do
  (ofSteps (← readPath path)).mapError fun fault => ⟨path, fault⟩

/-- Whether the expression only navigates from the data by properties and literal positions. -/
def isPath : Expression → Bool
  | this | identifier _ => true
  | property base _ => isPath base
  | index base (literal _) => isPath base
  | _ => false

end Expression

end Rulebook
