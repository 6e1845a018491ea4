import Rulebook.Proofs.Value.Content

/-!
# The bytes of expressions

The canonical bytes of an expression tell its syntax tree, down to the content of its literals.
Those of a formula also tell which names it reads and which of them come from another context.
-/
namespace Rulebook

theorem UnaryOperator.code_injective {left right : UnaryOperator} (equal : left.code = right.code) :
    left = right := by
  cases left <;> cases right <;> first | rfl | exact absurd equal (by decide)

theorem BinaryOperator.code_injective {left right : BinaryOperator}
    (equal : left.code = right.code) : left = right := by
  cases left <;> cases right <;> first | rfl | exact absurd equal (by decide)

theorem Quantifier.code_injective {left right : Quantifier} (equal : left.code = right.code) :
    left = right := by
  cases left <;> cases right <;> first | rfl | exact absurd equal (by decide)

namespace Expression

mutual

/-- All lengths in the expression fit into eight bytes, and so do those in its literals. -/
def Fits : Expression → Prop
  | literal value => value.Fits
  | this => True
  | identifier name => Bytes.TextFits name
  | property base name => Fits base ∧ Bytes.TextFits name
  | index base position => Fits base ∧ Fits position
  | unary _ operand => Fits operand
  | binary _ left right => Fits left ∧ Fits right
  | call function arguments => Bytes.TextFits function ∧
      arguments.length < Bytes.countLimit ∧ ItemsFit arguments
  | collection items => items.length < Bytes.countLimit ∧ ItemsFit items
  | filter source predicate => Fits source ∧ Fits predicate
  | forEach bound source body => Bytes.TextFits bound ∧ Fits source ∧ Fits body
  | quantified _ bound source predicate => Bytes.TextFits bound ∧ Fits source ∧ Fits predicate
  | ifThen condition consequence => Fits condition ∧ Fits consequence
  | ifThenElse condition consequence alternative =>
    Fits condition ∧ Fits consequence ∧ Fits alternative
  | instanceOf operand typeName => Fits operand ∧ Bytes.TextFits typeName
  | cast typeName operand => Bytes.TextFits typeName ∧ Fits operand

def ItemsFit : List Expression → Prop
  | [] => True
  | item :: items => Fits item ∧ ItemsFit items

end

mutual

/-- Expressions with one syntax tree, whose literals have the same content. -/
inductive SameContent : Expression → Expression → Prop
  | literal {left right : Value} (value : left.SameContent right) :
      SameContent (literal left) (literal right)
  | this : SameContent this this
  | identifier (name : String) : SameContent (identifier name) (identifier name)
  | property {left right : Expression} (base : SameContent left right) (name : String) :
      SameContent (property left name) (property right name)
  | index {left right leftAt rightAt : Expression} (base : SameContent left right)
      (position : SameContent leftAt rightAt) :
      SameContent (index left leftAt) (index right rightAt)
  | unary (operator : UnaryOperator) {left right : Expression} (operand : SameContent left right) :
      SameContent (unary operator left) (unary operator right)
  | binary (operator : BinaryOperator) {first second otherFirst otherSecond : Expression}
      (left : SameContent first otherFirst) (right : SameContent second otherSecond) :
      SameContent (binary operator first second) (binary operator otherFirst otherSecond)
  | call (function : String) {left right : List Expression} (arguments : SameItems left right) :
      SameContent (call function left) (call function right)
  | collection {left right : List Expression} (items : SameItems left right) :
      SameContent (collection left) (collection right)
  | filter {left right leftTest rightTest : Expression} (source : SameContent left right)
      (predicate : SameContent leftTest rightTest) :
      SameContent (filter left leftTest) (filter right rightTest)
  | forEach (bound : String) {left right leftBody rightBody : Expression}
      (source : SameContent left right) (body : SameContent leftBody rightBody) :
      SameContent (forEach bound left leftBody) (forEach bound right rightBody)
  | quantified (quantifier : Quantifier) (bound : String)
      {left right leftTest rightTest : Expression} (source : SameContent left right)
      (predicate : SameContent leftTest rightTest) :
      SameContent (quantified quantifier bound left leftTest)
        (quantified quantifier bound right rightTest)
  | ifThen {left right leftThen rightThen : Expression} (condition : SameContent left right)
      (consequence : SameContent leftThen rightThen) :
      SameContent (ifThen left leftThen) (ifThen right rightThen)
  | ifThenElse {left right leftThen rightThen leftElse rightElse : Expression}
      (condition : SameContent left right) (consequence : SameContent leftThen rightThen)
      (alternative : SameContent leftElse rightElse) :
      SameContent (ifThenElse left leftThen leftElse) (ifThenElse right rightThen rightElse)
  | instanceOf {left right : Expression} (operand : SameContent left right) (typeName : String) :
      SameContent (instanceOf left typeName) (instanceOf right typeName)
  | cast (typeName : String) {left right : Expression} (operand : SameContent left right) :
      SameContent (cast typeName left) (cast typeName right)

inductive SameItems : List Expression → List Expression → Prop
  | nil : SameItems [] []
  | cons {left right : Expression} {lefts rights : List Expression} (item : SameContent left right)
      (items : SameItems lefts rights) : SameItems (left :: lefts) (right :: rights)

end

open Bytes in
mutual

theorem bytes_delimited : ∀ left right : Expression, left.Fits → right.Fits →
    ∀ afterLeft afterRight, left.bytes ++ afterLeft = right.bytes ++ afterRight →
      SameContent left right ∧ afterLeft = afterRight
  | .literal value, right, leftFits, rightFits, afterLeft, afterRight, equal => by
    cases right with
    | literal other =>
      simp only [bytes, List.cons_append, List.cons.injEq, true_and] at equal
      rw [Fits] at leftFits rightFits
      obtain ⟨same, after⟩ := Value.bytes_delimited _ _ leftFits rightFits _ _ equal
      exact ⟨.literal same, after⟩
    | _ => simp [bytes] at equal
  | .this, right, _, _, afterLeft, afterRight, equal => by
    cases right with
    | this => exact ⟨.this, by simpa [bytes] using equal⟩
    | _ => simp [bytes] at equal
  | .identifier name, right, leftFits, rightFits, afterLeft, afterRight, equal => by
    cases right with
    | identifier other =>
      simp only [bytes, List.cons_append, List.cons.injEq, true_and] at equal
      rw [Fits] at leftFits rightFits
      obtain ⟨rfl, after⟩ := ofText_delimited _ _ leftFits rightFits _ _ equal
      exact ⟨.identifier name, after⟩
    | _ => simp [bytes] at equal
  | .property base name, right, leftFits, rightFits, afterLeft, afterRight, equal => by
    cases right with
    | property other otherName =>
      simp only [bytes, List.cons_append, List.append_assoc, List.cons.injEq, true_and] at equal
      rw [Fits] at leftFits rightFits
      obtain ⟨same, rest⟩ := bytes_delimited base other leftFits.1 rightFits.1 _ _ equal
      obtain ⟨rfl, after⟩ := ofText_delimited _ _ leftFits.2 rightFits.2 _ _ rest
      exact ⟨.property same name, after⟩
    | _ => simp [bytes] at equal
  | .index base position, right, leftFits, rightFits, afterLeft, afterRight, equal => by
    cases right with
    | index other otherPosition =>
      simp only [bytes, List.cons_append, List.append_assoc, List.cons.injEq, true_and] at equal
      rw [Fits] at leftFits rightFits
      obtain ⟨bases, rest⟩ := bytes_delimited base other leftFits.1 rightFits.1 _ _ equal
      obtain ⟨positions, after⟩ :=
        bytes_delimited position otherPosition leftFits.2 rightFits.2 _ _ rest
      exact ⟨.index bases positions, after⟩
    | _ => simp [bytes] at equal
  | .unary operator operand, right, leftFits, rightFits, afterLeft, afterRight, equal => by
    cases right with
    | unary otherOperator other =>
      simp only [bytes, List.cons_append, List.cons.injEq, true_and] at equal
      rw [Fits] at leftFits rightFits
      obtain rfl := UnaryOperator.code_injective equal.1
      obtain ⟨same, after⟩ := bytes_delimited operand other leftFits rightFits _ _ equal.2
      exact ⟨.unary operator same, after⟩
    | _ => simp [bytes] at equal
  | .binary operator first second, right, leftFits, rightFits, afterLeft, afterRight, equal => by
    cases right with
    | binary otherOperator otherFirst otherSecond =>
      simp only [bytes, List.cons_append, List.append_assoc, List.cons.injEq, true_and] at equal
      rw [Fits] at leftFits rightFits
      obtain rfl := BinaryOperator.code_injective equal.1
      obtain ⟨firsts, rest⟩ := bytes_delimited first otherFirst leftFits.1 rightFits.1 _ _ equal.2
      obtain ⟨seconds, after⟩ :=
        bytes_delimited second otherSecond leftFits.2 rightFits.2 _ _ rest
      exact ⟨.binary operator firsts seconds, after⟩
    | _ => simp [bytes] at equal
  | .call function arguments, right, leftFits, rightFits, afterLeft, afterRight, equal => by
    cases right with
    | call otherFunction others =>
      simp only [bytes, List.cons_append, List.append_assoc, List.cons.injEq, true_and] at equal
      rw [Fits] at leftFits rightFits
      obtain ⟨rfl, counted⟩ := ofText_delimited _ _ leftFits.1 rightFits.1 _ _ equal
      obtain ⟨lengths, rest⟩ := ofCount_delimited _ _ leftFits.2.1 rightFits.2.1 _ _ counted
      obtain ⟨same, after⟩ :=
        itemBytes_delimited arguments others lengths leftFits.2.2 rightFits.2.2 _ _ rest
      exact ⟨.call function same, after⟩
    | _ => simp [bytes] at equal
  | .collection items, right, leftFits, rightFits, afterLeft, afterRight, equal => by
    cases right with
    | collection others =>
      simp only [bytes, List.cons_append, List.append_assoc, List.cons.injEq, true_and] at equal
      rw [Fits] at leftFits rightFits
      obtain ⟨lengths, rest⟩ := ofCount_delimited _ _ leftFits.1 rightFits.1 _ _ equal
      obtain ⟨same, after⟩ :=
        itemBytes_delimited items others lengths leftFits.2 rightFits.2 _ _ rest
      exact ⟨.collection same, after⟩
    | _ => simp [bytes] at equal
  | .filter source predicate, right, leftFits, rightFits, afterLeft, afterRight, equal => by
    cases right with
    | filter other otherPredicate =>
      simp only [bytes, List.cons_append, List.append_assoc, List.cons.injEq, true_and] at equal
      rw [Fits] at leftFits rightFits
      obtain ⟨sources, rest⟩ := bytes_delimited source other leftFits.1 rightFits.1 _ _ equal
      obtain ⟨predicates, after⟩ :=
        bytes_delimited predicate otherPredicate leftFits.2 rightFits.2 _ _ rest
      exact ⟨.filter sources predicates, after⟩
    | _ => simp [bytes] at equal
  | .forEach bound source body, right, leftFits, rightFits, afterLeft, afterRight, equal => by
    cases right with
    | forEach otherBound other otherBody =>
      simp only [bytes, List.cons_append, List.append_assoc, List.cons.injEq, true_and] at equal
      rw [Fits] at leftFits rightFits
      obtain ⟨rfl, afterBound⟩ := ofText_delimited _ _ leftFits.1 rightFits.1 _ _ equal
      obtain ⟨sources, rest⟩ :=
        bytes_delimited source other leftFits.2.1 rightFits.2.1 _ _ afterBound
      obtain ⟨bodies, after⟩ := bytes_delimited body otherBody leftFits.2.2 rightFits.2.2 _ _ rest
      exact ⟨.forEach bound sources bodies, after⟩
    | _ => simp [bytes] at equal
  | .quantified quantifier bound source predicate, right, leftFits, rightFits, afterLeft,
      afterRight, equal => by
    cases right with
    | quantified otherQuantifier otherBound other otherPredicate =>
      simp only [bytes, List.cons_append, List.append_assoc, List.cons.injEq, true_and] at equal
      rw [Fits] at leftFits rightFits
      obtain rfl := Quantifier.code_injective equal.1
      obtain ⟨rfl, afterBound⟩ := ofText_delimited _ _ leftFits.1 rightFits.1 _ _ equal.2
      obtain ⟨sources, rest⟩ :=
        bytes_delimited source other leftFits.2.1 rightFits.2.1 _ _ afterBound
      obtain ⟨predicates, after⟩ :=
        bytes_delimited predicate otherPredicate leftFits.2.2 rightFits.2.2 _ _ rest
      exact ⟨.quantified quantifier bound sources predicates, after⟩
    | _ => simp [bytes] at equal
  -- Up to the byte behind the consequence the two conditionals are written alike.
  | .ifThen condition consequence, right, leftFits, rightFits, afterLeft, afterRight, equal => by
    cases right with
    | ifThen other otherThen =>
      simp only [bytes, List.cons_append, List.append_assoc, List.nil_append, List.cons.injEq,
        true_and] at equal
      rw [Fits] at leftFits rightFits
      obtain ⟨conditions, rest⟩ := bytes_delimited condition other leftFits.1 rightFits.1 _ _ equal
      obtain ⟨consequences, marked⟩ :=
        bytes_delimited consequence otherThen leftFits.2 rightFits.2 _ _ rest
      exact ⟨.ifThen conditions consequences, (List.cons.inj marked).2⟩
    | ifThenElse other otherThen otherElse =>
      simp only [bytes, List.cons_append, List.append_assoc, List.nil_append, List.cons.injEq,
        true_and] at equal
      rw [Fits] at leftFits
      rw [Fits] at rightFits
      obtain ⟨_, rest⟩ := bytes_delimited condition other leftFits.1 rightFits.1 _ _ equal
      obtain ⟨_, marked⟩ :=
        bytes_delimited consequence otherThen leftFits.2 rightFits.2.1 _ _ rest
      simp at marked
    | _ => simp [bytes] at equal
  | .ifThenElse condition consequence alternative, right, leftFits, rightFits, afterLeft,
      afterRight, equal => by
    cases right with
    | ifThen other otherThen =>
      simp only [bytes, List.cons_append, List.append_assoc, List.nil_append, List.cons.injEq,
        true_and] at equal
      rw [Fits] at leftFits
      rw [Fits] at rightFits
      obtain ⟨_, rest⟩ := bytes_delimited condition other leftFits.1 rightFits.1 _ _ equal
      obtain ⟨_, marked⟩ :=
        bytes_delimited consequence otherThen leftFits.2.1 rightFits.2 _ _ rest
      simp at marked
    | ifThenElse other otherThen otherElse =>
      simp only [bytes, List.cons_append, List.append_assoc, List.cons.injEq, true_and] at equal
      rw [Fits] at leftFits rightFits
      obtain ⟨conditions, rest⟩ := bytes_delimited condition other leftFits.1 rightFits.1 _ _ equal
      obtain ⟨consequences, marked⟩ :=
        bytes_delimited consequence otherThen leftFits.2.1 rightFits.2.1 _ _ rest
      obtain ⟨alternatives, after⟩ :=
        bytes_delimited alternative otherElse leftFits.2.2 rightFits.2.2 _ _
          (List.cons.inj marked).2
      exact ⟨.ifThenElse conditions consequences alternatives, after⟩
    | _ => simp [bytes] at equal
  | .instanceOf operand typeName, right, leftFits, rightFits, afterLeft, afterRight, equal => by
    cases right with
    | instanceOf other otherType =>
      simp only [bytes, List.cons_append, List.append_assoc, List.cons.injEq, true_and] at equal
      rw [Fits] at leftFits rightFits
      obtain ⟨same, rest⟩ := bytes_delimited operand other leftFits.1 rightFits.1 _ _ equal
      obtain ⟨rfl, after⟩ := ofText_delimited _ _ leftFits.2 rightFits.2 _ _ rest
      exact ⟨.instanceOf same typeName, after⟩
    | _ => simp [bytes] at equal
  | .cast typeName operand, right, leftFits, rightFits, afterLeft, afterRight, equal => by
    cases right with
    | cast otherType other =>
      simp only [bytes, List.cons_append, List.append_assoc, List.cons.injEq, true_and] at equal
      rw [Fits] at leftFits rightFits
      obtain ⟨rfl, rest⟩ := ofText_delimited _ _ leftFits.1 rightFits.1 _ _ equal
      obtain ⟨same, after⟩ := bytes_delimited operand other leftFits.2 rightFits.2 _ _ rest
      exact ⟨.cast typeName same, after⟩
    | _ => simp [bytes] at equal

theorem itemBytes_delimited : ∀ left right : List Expression, left.length = right.length →
    ItemsFit left → ItemsFit right → ∀ afterLeft afterRight,
      itemBytes left ++ afterLeft = itemBytes right ++ afterRight →
        SameItems left right ∧ afterLeft = afterRight
  | [], right, lengths, _, _, afterLeft, afterRight, equal => by
    obtain rfl := List.length_eq_zero_iff.mp lengths.symm
    exact ⟨.nil, equal⟩
  | item :: items, [], lengths, _, _, _, _, _ => by simp at lengths
  | item :: items, other :: others, lengths, leftFits, rightFits, afterLeft, afterRight, equal => by
    simp only [itemBytes, List.append_assoc] at equal
    rw [ItemsFit] at leftFits rightFits
    obtain ⟨same, rest⟩ := bytes_delimited item other leftFits.1 rightFits.1 _ _ equal
    obtain ⟨sames, after⟩ := itemBytes_delimited items others (Nat.succ.inj lengths) leftFits.2
      rightFits.2 _ _ rest
    exact ⟨.cons same sames, after⟩

end

theorem SameItems.length_eq {left right : List Expression} :
    SameItems left right → left.length = right.length
  | .nil => rfl
  | .cons _ items => congrArg (· + 1) items.length_eq

mutual

theorem SameContent.bytes_eq {left right : Expression} :
    left.SameContent right → left.bytes = right.bytes
  | .this | .identifier _ => rfl
  | .literal value => by rw [bytes, bytes, value.bytes_eq]
  | .property base _ => by rw [bytes, bytes, base.bytes_eq]
  | .index base position => by rw [bytes, bytes, base.bytes_eq, position.bytes_eq]
  | .unary _ operand => by rw [bytes, bytes, operand.bytes_eq]
  | .binary _ left right => by rw [bytes, bytes, left.bytes_eq, right.bytes_eq]
  | .call _ arguments => by rw [bytes, bytes, arguments.length_eq, arguments.itemBytes_eq]
  | .collection items => by rw [bytes, bytes, items.length_eq, items.itemBytes_eq]
  | .filter source predicate => by rw [bytes, bytes, source.bytes_eq, predicate.bytes_eq]
  | .forEach _ source body => by rw [bytes, bytes, source.bytes_eq, body.bytes_eq]
  | .quantified _ _ source predicate => by
    rw [bytes, bytes, source.bytes_eq, predicate.bytes_eq]
  | .ifThen condition consequence => by
    rw [bytes, bytes, condition.bytes_eq, consequence.bytes_eq]
  | .ifThenElse condition consequence alternative => by
    rw [bytes, bytes, condition.bytes_eq, consequence.bytes_eq, alternative.bytes_eq]
  | .instanceOf operand _ => by rw [bytes, bytes, operand.bytes_eq]
  | .cast _ operand => by rw [bytes, bytes, operand.bytes_eq]

theorem SameItems.itemBytes_eq {left right : List Expression} :
    SameItems left right → itemBytes left = itemBytes right
  | .nil => rfl
  | .cons item items => by rw [itemBytes, itemBytes, item.bytes_eq, items.itemBytes_eq]

end

end Expression

namespace Reference

theorem bytes_delimited :
    Bytes.Delimited bytes (fun reference => Bytes.TextFits reference.name) Eq := by
  intro left right leftFits rightFits afterLeft afterRight equal
  simp only [bytes, List.append_assoc] at equal
  obtain ⟨names, rest⟩ := Bytes.ofText_delimited _ _ leftFits rightFits _ _ equal
  obtain ⟨flags, after⟩ := List.cons.inj rest
  have origins : left.crossContext = right.crossContext := by
    cases leftCross : left.crossContext <;> cases rightCross : right.crossContext <;>
      simp_all
  cases left
  cases right
  exact ⟨by simp_all, after⟩

end Reference

namespace Formula

/-- All lengths in the formula fit into eight bytes. -/
def Fits (formula : Formula) : Prop :=
  formula.expression.Fits ∧ formula.references.length < Bytes.countLimit ∧
    ∀ reference ∈ formula.references, Bytes.TextFits reference.name

/-- Formulas whose expressions have the same content and that read the same names. -/
structure SameContent (left right : Formula) : Prop where
  expression : left.expression.SameContent right.expression
  references : left.references = right.references

theorem bytes_delimited : Bytes.Delimited bytes Fits SameContent := by
  intro left right leftFits rightFits afterLeft afterRight equal
  simp only [bytes, List.append_assoc] at equal
  obtain ⟨expressions, rest⟩ :=
    Expression.bytes_delimited _ _ leftFits.1 rightFits.1 _ _ equal
  obtain ⟨references, after⟩ :=
    Reference.bytes_delimited.ofList _ _ leftFits.2 rightFits.2 _ _ rest
  exact ⟨⟨expressions, List.forall₂_eq_eq_eq ▸ references⟩, after⟩

theorem SameContent.bytes_eq {left right : Formula} (same : left.SameContent right) :
    left.bytes = right.bytes := by
  rw [bytes, same.expression.bytes_eq, same.references, ← bytes]

end Formula

end Rulebook
