import Mathlib.Logic.Function.Basic
import Rulebook.Proofs.Evaluation.NamedVariables

/-!
# Names of bound elements

It does not matter under which name a comprehension binds its elements. If the name is changed
together with what it binds, to one that does not occur in the body, then the body finds the same
elements: what it reads is bound by the same binders as before, and bound elements are read before
anything else of that name, in filters as well.
-/
namespace Rulebook

namespace Expression

mutual

/-- The names that occur in an expression, whether they are read or bound. -/
def names : Expression → List String
  | literal _ | this => []
  | identifier name => [name]
  | property base _ => names base
  | index base position => names base ++ names position
  | unary _ operand => names operand
  | binary _ left right => names left ++ names right
  | call _ arguments => namesAll arguments
  | collection items => namesAll items
  | filter source predicate => names source ++ names predicate
  | forEach bound source body => bound :: (names source ++ names body)
  | quantified _ bound source predicate => bound :: (names source ++ names predicate)
  | ifThen condition consequence => names condition ++ names consequence
  | ifThenElse condition consequence alternative =>
    names condition ++ (names consequence ++ names alternative)
  | instanceOf operand _ => names operand
  | cast _ operand => names operand

def namesAll : List Expression → List String
  | [] => []
  | expression :: expressions => names expression ++ namesAll expressions

end

mutual

/-- The expression with other names for what it reads from outside. A name that is bound in it keeps
its meaning there. -/
def rename (replace : String → String) : Expression → Expression
  | literal value => literal value
  | this => this
  | identifier name => identifier (replace name)
  | property base name => property (rename replace base) name
  | index base position => index (rename replace base) (rename replace position)
  | unary operator operand => unary operator (rename replace operand)
  | binary operator left right => binary operator (rename replace left) (rename replace right)
  | call function arguments => call function (renameAll replace arguments)
  | collection items => collection (renameAll replace items)
  | filter source predicate => filter (rename replace source) (rename replace predicate)
  | forEach bound source body =>
    forEach bound (rename replace source) (rename (Function.update replace bound bound) body)
  | quantified quantifier bound source predicate =>
    quantified quantifier bound (rename replace source)
      (rename (Function.update replace bound bound) predicate)
  | ifThen condition consequence =>
    ifThen (rename replace condition) (rename replace consequence)
  | ifThenElse condition consequence alternative =>
    ifThenElse (rename replace condition) (rename replace consequence)
      (rename replace alternative)
  | instanceOf operand typeName => instanceOf (rename replace operand) typeName
  | cast typeName operand => cast typeName (rename replace operand)

def renameAll (replace : String → String) : List Expression → List Expression
  | [] => []
  | expression :: expressions => rename replace expression :: renameAll replace expressions

end

/-- The expression with one name for another where it is read from outside. -/
def renameFree (old new : String) (expression : Expression) : Expression :=
  expression.rename (Function.update id old new)

/-- An expression without one of its immediate parts. -/
inductive Frame where
  | propertyBase (name : String)
  | indexBase (position : Expression)
  | indexPosition (base : Expression)
  | unaryOperand (operator : UnaryOperator)
  | binaryLeft (operator : BinaryOperator) (right : Expression)
  | binaryRight (operator : BinaryOperator) (left : Expression)
  | callArgument (function : String) (before after : List Expression)
  | collectionItem (before after : List Expression)
  | filterSource (predicate : Expression)
  | filterPredicate (source : Expression)
  | forEachSource (bound : String) (body : Expression)
  | forEachBody (bound : String) (source : Expression)
  | quantifiedSource (quantifier : Quantifier) (bound : String) (predicate : Expression)
  | quantifiedPredicate (quantifier : Quantifier) (bound : String) (source : Expression)
  | ifThenCondition (consequence : Expression)
  | ifThenConsequence (condition : Expression)
  | ifThenElseCondition (consequence alternative : Expression)
  | ifThenElseConsequence (condition alternative : Expression)
  | ifThenElseAlternative (condition consequence : Expression)
  | instanceOfOperand (typeName : String)
  | castOperand (typeName : String)

/-- The expression with a part in that place. -/
def Frame.around (part : Expression) : Frame → Expression
  | propertyBase name => property part name
  | indexBase position => index part position
  | indexPosition base => index base part
  | unaryOperand operator => unary operator part
  | binaryLeft operator right => binary operator part right
  | binaryRight operator left => binary operator left part
  | callArgument function before after => call function (before ++ part :: after)
  | collectionItem before after => collection (before ++ part :: after)
  | filterSource predicate => filter part predicate
  | filterPredicate source => filter source part
  | forEachSource bound body => forEach bound part body
  | forEachBody bound source => forEach bound source part
  | quantifiedSource quantifier bound predicate => quantified quantifier bound part predicate
  | quantifiedPredicate quantifier bound source => quantified quantifier bound source part
  | ifThenCondition consequence => ifThen part consequence
  | ifThenConsequence condition => ifThen condition part
  | ifThenElseCondition consequence alternative => ifThenElse part consequence alternative
  | ifThenElseConsequence condition alternative => ifThenElse condition part alternative
  | ifThenElseAlternative condition consequence => ifThenElse condition consequence part
  | instanceOfOperand typeName => instanceOf part typeName
  | castOperand typeName => cast typeName part

/-- The expression with a part deep inside, the outermost frame first. -/
def surround (frames : List Frame) (part : Expression) : Expression :=
  frames.foldr (fun frame inner => frame.around inner) part

/-- Nothing with a part is a literal. -/
theorem literal?_around (frame : Frame) (part : Expression) (flagged : List String) :
    Formula.literal? ⟨frame.around part, flagged⟩ = none := by
  cases frame <;> rfl

/-- What has a part that is no literal is no literal itself. -/
theorem literal?_surround (frames : List Frame) {part : Expression} {flagged : List String}
    (complex : Formula.literal? ⟨part, flagged⟩ = none) :
    Formula.literal? ⟨surround frames part, flagged⟩ = none := by
  cases frames with
  | nil => exact complex
  | cons frame frames => exact literal?_around frame (surround frames part) flagged

end Expression

namespace Machine

open Traced (Follows)

/-- Two scopes bind the same elements, on the right under other names; only bound names are changed,
and no more than one new name comes in. -/
structure BoundAs (new : String) (replace : String → String) (left right : Scope) : Prop where
  this : left.this = right.this
  bound : ∀ name, name ≠ new →
    Table.find? name left.bound = Table.find? (replace name) right.bound
  kept : ∀ name, name ≠ new →
    replace name = name ∨ replace name = new ∧ name ∈ Table.names left.bound

namespace BoundAs

variable {new : String} {replace : String → String} {left right : Scope}

/-- A name that is bound on both sides means itself from there on. -/
theorem bind (scopes : BoundAs new replace left right) {name : String} (other : name ≠ new)
    (element : Value) :
    BoundAs new (Function.update replace name name)
      { left with bound := (name, element) :: left.bound }
      { right with bound := (name, element) :: right.bound } where
  this := scopes.this
  bound wanted apart := by
    by_cases same : wanted = name
    · subst same
      simp [Table.find?]
    · rw [Function.update_of_ne same]
      have distinct : name ≠ replace wanted := by
        -- A name that is not changed differs from the bound one; a changed one is new, and that is
        -- not bound here.
        rcases scopes.kept wanted apart with kept | ⟨changed, _⟩
        · rw [kept]
          exact Ne.symm same
        · rw [changed]
          exact other
      rw [Table.find?, if_neg (Ne.symm same), Table.find?, if_neg distinct]
      exact scopes.bound wanted apart
  kept wanted apart := by
    by_cases same : wanted = name
    · subst same
      exact .inl (Function.update_self ..)
    · rw [Function.update_of_ne same]
      exact (scopes.kept wanted apart).imp_right (And.imp_right (List.mem_cons_of_mem _))

/-- The element of a filter becomes the object in scope and binds nothing. -/
theorem enter (scopes : BoundAs new replace left right) (element : Value) :
    BoundAs new replace { left with this := element } { right with this := element } :=
  ⟨rfl, scopes.bound, scopes.kept⟩

/-- Binding an element under a new name that is not read changes one name. -/
theorem of_bind (old new : String) (scope : Scope) (element : Value) :
    BoundAs new (Function.update id old new)
      { scope with bound := (old, element) :: scope.bound }
      { scope with bound := (new, element) :: scope.bound } where
  this := rfl
  bound wanted apart := by
    by_cases same : wanted = old
    · subst same
      simp [Table.find?]
    · rw [Function.update_of_ne same, id, Table.find?, if_neg (Ne.symm same), Table.find?,
        if_neg (Ne.symm apart)]
  kept wanted apart := by
    by_cases same : wanted = old
    · subst same
      exact .inr ⟨Function.update_self .., List.mem_cons_self⟩
    · exact .inl (Function.update_of_ne same ..)

/-- Names read alike on both sides, the new name apart. -/
theorem readName (machine : Machine) (scopes : BoundAs new replace left right) {name : String}
    (apart : name ≠ new) :
    machine.readName left name = machine.readName right (replace name) := by
  unfold Machine.readName
  rw [scopes.bound name apart]
  cases found : Table.find? (replace name) right.bound with
  | some value => rfl
  | none =>
    -- A name that is not bound is not changed either.
    have unbound : name ∉ Table.names left.bound := by
      rw [← Table.find?_eq_none_iff, scopes.bound name apart, found]
    rcases scopes.kept name apart with kept | ⟨_, bound⟩
    · rw [kept, scopes.this]
    · exact absurd bound unbound

end BoundAs

section

variable (machine : Machine) {new : String}

/-- A machine agrees with itself. -/
theorem agree_self : Agree .same machine machine :=
  SameOutside.agree ⟨rfl, rfl, rfl, fun _ => rfl⟩

mutual

/-- An expression runs alike under other names for what is bound, if no new name occurs in it. Every
binder in it makes its own name mean itself, so the names that are changed become fewer on the way
inside. -/
theorem evaluate_rename : ∀ (expression : Expression) (levels : Nat) {replace : String → String}
    {left right : Scope}, new ∉ expression.names → BoundAs new replace left right →
      Follows .same Eq (machine.evaluate expression left levels)
        (machine.evaluate (expression.rename replace) right levels)
  | expression, 0, replace, _, _, _, _ =>
    machine.agree_self.evaluate_zero expression (expression.rename replace)
  | .literal _, _ + 1, _, _, _, _, _ => .pure rfl
  | .this, _ + 1, _, _, _, _, scopes => .pure scopes.this
  | .identifier name, _ + 1, replace, left, right, fresh, scopes => by
    have read := scopes.readName machine (Ne.symm (List.ne_of_not_mem_cons fresh))
    simp only [Expression.rename, evaluate, read]
    exact .refl _
  | .property base name, level + 1, _, _, _, fresh, scopes =>
    machine.agree_self.evaluate_property name (evaluate_rename base level fresh scopes)
  | .index base position, level + 1, _, _, _, fresh, scopes => by
    simp only [Expression.names, List.mem_append, not_or] at fresh
    exact machine.agree_self.evaluate_index (evaluate_rename base level fresh.1 scopes)
      (evaluate_rename position level fresh.2 scopes)
  | .unary operator operand, level + 1, _, _, _, fresh, scopes =>
    machine.agree_self.evaluate_unary operator (evaluate_rename operand level fresh scopes)
  | .binary operator operand other, level + 1, _, _, _, fresh, scopes => by
    simp only [Expression.names, List.mem_append, not_or] at fresh
    exact machine.agree_self.evaluate_binary operator (evaluate_rename operand level fresh.1 scopes)
      (evaluate_rename other level fresh.2 scopes)
  | .call name arguments, level + 1, _, _, _, fresh, scopes =>
    machine.agree_self.evaluate_call name (evaluateAll_rename arguments level fresh scopes)
  | .collection items, level + 1, _, _, _, fresh, scopes =>
    machine.agree_self.evaluate_collection (evaluateAll_rename items level fresh scopes)
  | .filter source predicate, level + 1, _, _, _, fresh, scopes => by
    simp only [Expression.names, List.mem_append, not_or] at fresh
    -- A filter binds nothing, so its predicate reads the names that are bound around it.
    refine machine.agree_self.evaluate_filter (evaluate_rename source level fresh.1 scopes) ?_
    rintro element _ rfl
    exact evaluate_rename predicate level fresh.2 (scopes.enter element)
  | .forEach bound source body, level + 1, _, _, _, fresh, scopes => by
    simp only [Expression.names, List.mem_cons, List.mem_append, not_or] at fresh
    -- The source stands outside of the binder; in the body the bound name is not replaced.
    refine machine.agree_self.evaluate_forEach bound bound
      (evaluate_rename source level fresh.2.1 scopes) ?_
    rintro element _ rfl
    exact evaluate_rename body level fresh.2.2 (scopes.bind (Ne.symm fresh.1) element)
  | .quantified quantifier bound source predicate, level + 1, _, _, _, fresh, scopes => by
    simp only [Expression.names, List.mem_cons, List.mem_append, not_or] at fresh
    refine machine.agree_self.evaluate_quantified quantifier bound bound
      (evaluate_rename source level fresh.2.1 scopes) ?_
    rintro element _ rfl
    exact evaluate_rename predicate level fresh.2.2 (scopes.bind (Ne.symm fresh.1) element)
  | .ifThen condition consequence, level + 1, _, _, _, fresh, scopes => by
    simp only [Expression.names, List.mem_append, not_or] at fresh
    exact machine.agree_self.evaluate_ifThen (evaluate_rename condition level fresh.1 scopes)
      (evaluate_rename consequence level fresh.2 scopes)
  | .ifThenElse condition consequence alternative, level + 1, _, _, _, fresh, scopes => by
    simp only [Expression.names, List.mem_append, not_or] at fresh
    exact machine.agree_self.evaluate_ifThenElse (evaluate_rename condition level fresh.1 scopes)
      (evaluate_rename consequence level fresh.2.1 scopes)
      (evaluate_rename alternative level fresh.2.2 scopes)
  | .instanceOf operand typeName, level + 1, _, _, _, fresh, scopes =>
    machine.agree_self.evaluate_instanceOf typeName (evaluate_rename operand level fresh scopes)
  | .cast typeName operand, level + 1, _, _, _, fresh, scopes =>
    machine.agree_self.evaluate_cast typeName (evaluate_rename operand level fresh scopes)

theorem evaluateAll_rename : ∀ (expressions : List Expression) (levels : Nat)
    {replace : String → String} {left right : Scope},
      new ∉ Expression.namesAll expressions → BoundAs new replace left right →
        Follows .same (List.Forall₂ Eq) (machine.evaluateAll expressions left levels)
          (machine.evaluateAll (Expression.renameAll replace expressions) right levels)
  | [], _, _, _, _, _, _ => .pure .nil
  | expression :: rest, levels, _, _, _, fresh, scopes => by
    simp only [Expression.namesAll, List.mem_append, not_or] at fresh
    exact Agree.evaluateAll_cons (evaluate_rename expression levels fresh.1 scopes)
      (evaluateAll_rename rest levels fresh.2 scopes)

end

/-- A comprehension may bind its elements under any name that does not occur in its body. -/
theorem evaluate_forEach_rename (source : Expression) {body : Expression} (old : String)
    (fresh : new ∉ body.names) (scope : Scope) (levels : Nat) :
    machine.evaluate (.forEach old source body) scope levels
      = machine.evaluate (.forEach new source (body.renameFree old new)) scope levels := by
  cases levels with
  | zero => rw [evaluate_zero, evaluate_zero]
  | succ level =>
    refine (machine.agree_self.evaluate_forEach old new (.refl _) ?_).eq
    rintro element _ rfl
    exact machine.evaluate_rename body level fresh (.of_bind old new scope element)

/-- So may a quantifier. -/
theorem evaluate_quantified_rename (quantifier : Quantifier) (source : Expression)
    {predicate : Expression} (old : String) (fresh : new ∉ predicate.names) (scope : Scope)
    (levels : Nat) :
    machine.evaluate (.quantified quantifier old source predicate) scope levels
      = machine.evaluate (.quantified quantifier new source (predicate.renameFree old new)) scope
          levels := by
  cases levels with
  | zero => rw [evaluate_zero, evaluate_zero]
  | succ level =>
    refine (machine.agree_self.evaluate_quantified quantifier old new (.refl _) ?_).eq
    rintro element _ rfl
    exact machine.evaluate_rename predicate level fresh (.of_bind old new scope element)

variable {part part' : Expression} (same : ∀ scope levels,
  machine.evaluate part scope levels = machine.evaluate part' scope levels)
include same

/-- So can one of several parts. -/
theorem evaluateAll_append_cons (before after : List Expression) (scope : Scope) (levels : Nat) :
    machine.evaluateAll (before ++ part :: after) scope levels
      = machine.evaluateAll (before ++ part' :: after) scope levels := by
  induction before with
  | nil => simp only [List.nil_append, evaluateAll, same]
  | cons expression before ih => simp only [List.cons_append, evaluateAll, ih]

/-- An expression evaluates the same with another part that evaluates the same. -/
theorem evaluate_around (frame : Expression.Frame) (scope : Scope) (levels : Nat) :
    machine.evaluate (frame.around part) scope levels
      = machine.evaluate (frame.around part') scope levels := by
  cases levels with
  | zero => rw [evaluate_zero, evaluate_zero]
  | succ level =>
    -- Arguments and items are the only parts that stand in a list.
    cases frame with
    | callArgument | collectionItem =>
      simp only [Expression.Frame.around, evaluate, machine.evaluateAll_append_cons same]
    | _ => simp only [Expression.Frame.around, evaluate, same]

/-- A part that evaluates the same can be put for another one deep inside. -/
theorem evaluate_surround (frames : List Expression.Frame) (scope : Scope) (levels : Nat) :
    machine.evaluate (.surround frames part) scope levels
      = machine.evaluate (.surround frames part') scope levels := by
  induction frames generalizing scope levels with
  | nil => exact same scope levels
  | cons frame frames ih => exact machine.evaluate_around ih frame scope levels

end

end Machine

namespace Evaluator

section

variable (evaluator : Evaluator) (flagged : List String) (environment : Environment)
  (clock : Clock)

/-- Expressions that evaluate the same on every machine are the same as formulas with the same
flags, though their references may come in another order. -/
theorem traced_run_eq_of_evaluate {expression expression' : Expression}
    (complex : Formula.literal? ⟨expression, flagged⟩ = none)
    (complex' : Formula.literal? ⟨expression', flagged⟩ = none)
    (same : ∀ (machine : Machine) scope levels, machine.evaluate expression scope levels
      = machine.evaluate expression' scope levels) :
    (evaluator.run ⟨expression, flagged⟩ environment clock).traced
      = (evaluator.run ⟨expression', flagged⟩ environment clock).traced := by
  -- The first formula runs the second expression as well, though on its own machine, which may
  -- hold the same cross names in another order.
  rw [traced_run_of_complex _ complex, traced_run_of_complex _ complex', trace, same]
  have crossNames (name : String) : name ∈ Formula.crossNames ⟨expression, flagged⟩ ↔
      name ∈ Formula.crossNames ⟨expression', flagged⟩ := by
    rw [Formula.mem_crossNames_iff, Formula.mem_crossNames_iff]
  have agree : Machine.Agree .same
      (evaluator.machine ⟨expression, flagged⟩ environment clock)
      (evaluator.machine ⟨expression', flagged⟩ environment clock) :=
    .of_calls (fun _ _ => rfl) rfl rfl rfl (.inr rfl) fun _ _ => .refl _
  have corresponding : Machine.ScopesAgree .same
      (evaluator.machine ⟨expression, flagged⟩ environment clock)
      (evaluator.machine ⟨expression', flagged⟩ environment clock) (Machine.BoundBehind []) :=
    Machine.scopesAgree_boundBehind (fun _ _ => rfl) (fun _ => rfl) rfl crossNames
      (fun _ _ => rfl) rfl
  exact (corresponding.evaluate agree expression' evaluator.maxDepth ⟨rfl, rfl⟩).eq

/-- The name of a binder does not matter, wherever in an expression it stands: with a name that does
not occur in the body, put for the old one where that is read from the binder, the evaluation ends
with the same value or the same halt and notes the same. The new name may be that of a named
variable, of a flagged reference or of a property. -/
theorem bound_names_do_not_matter (frames : List Expression.Frame) (source : Expression)
    {body : Expression} (old : String) {new : String} (fresh : new ∉ body.names) :
    (evaluator.run ⟨.surround frames (.forEach old source body), flagged⟩ environment clock).traced
      = (evaluator.run ⟨.surround frames (.forEach new source (body.renameFree old new)), flagged⟩
          environment clock).traced ∧
    ∀ quantifier,
      (evaluator.run ⟨.surround frames (.quantified quantifier old source body), flagged⟩
          environment clock).traced
        = (evaluator.run ⟨.surround frames
            (.quantified quantifier new source (body.renameFree old new)), flagged⟩
            environment clock).traced := by
  constructor
  · refine evaluator.traced_run_eq_of_evaluate flagged environment clock
      (Expression.literal?_surround frames rfl) (Expression.literal?_surround frames rfl) ?_
    exact fun machine => machine.evaluate_surround
      (machine.evaluate_forEach_rename source old fresh) frames
  · intro quantifier
    refine evaluator.traced_run_eq_of_evaluate flagged environment clock
      (Expression.literal?_surround frames rfl) (Expression.literal?_surround frames rfl) ?_
    exact fun machine => machine.evaluate_surround
      (machine.evaluate_quantified_rename quantifier source old fresh) frames

end

/-- What a body reads of an element in a filter and behind another binder, which takes the same name
for its own elements. -/
def bodyOfEach (name : String) : Expression :=
  .collection [.identifier name, .filter (.literal (.list [.null, .bool true])) (.identifier name),
    .forEach "each" (.identifier name) (.identifier "each")]

/-- The elements are bound under the name of a flagged reference that is read beside them, of a
named variable and of a property, and the inner binder keeps its name. -/
theorem bound_names_do_not_matter_of_rate :
    let flags : Expression := .literal (.list [.bool true, .bool false])
    let frames : List Expression.Frame := [.collectionItem [] [.identifier "rate"]]
    let environment : Environment := ⟨.map [("rate", .null)], [("rate", .bool true)], []⟩
    let within (name : String) : Report :=
      Evaluator.fixed.run ⟨.surround frames (.forEach name flags (bodyOfEach name)), ["rate"]⟩
        environment .fixed
    "rate" ∉ (bodyOfEach "each").names ∧
      (bodyOfEach "each").renameFree "each" "rate" = bodyOfEach "rate" ∧
      (within "each").traced = (within "rate").traced ∧
      (within "rate").traced = ⟨.ok (.list [.list [
        .list [.bool true, .list [.bool true], .list [.bool true]],
        .list [.bool false, .list [], .list [.bool false]]], .null]),
        [.unresolvedReference "rate"]⟩ := by
  intro flags frames environment within
  have fresh : "rate" ∉ (bodyOfEach "each").names := by decide
  have renamed : (bodyOfEach "each").renameFree "each" "rate" = bodyOfEach "rate" := rfl
  have same := (bound_names_do_not_matter .fixed ["rate"] environment .fixed frames flags "each"
    fresh).1
  refine ⟨fresh, renamed, same, ?_⟩
  simp only [within, Report.traced, run, frames, Expression.surround, Expression.Frame.around,
    List.foldr_cons, List.foldr_nil, List.nil_append, bodyOfEach, Formula.literal?,
    Machine.evaluate, Machine.evaluateAll, Machine.elements, maxDepth_fixed, adapters_fixed,
    AdapterRegistry.elements_standard]
  rfl

end Evaluator

end Rulebook
