import Rulebook.Proofs.Evaluation.InTurn
import Rulebook.Proofs.Evaluation.NamedVariables

/-!
# References that are not resolved

A flagged name that no other context gives a value for is null, and that is noted; nothing else is
ever noted. So if another machine reads every name as a machine does, but notes only some of what
that one notes, then its evaluations end in the same way and note just that much less: what was
noted has no bearing on how an evaluation goes on.
-/
namespace Rulebook

namespace Table

variable {Item : Type}

/-- Sets a name only if it is missing. -/
def setMissing (name : String) (item : Item) (table : Table Item) : Table Item :=
  if name ∈ names table then table else set name item table

/-- A name that is missing is found with the item, all others as before. -/
theorem find?_setMissing (wanted name : String) (item : Item) (table : Table Item) :
    find? wanted (setMissing name item table) =
      (find? wanted table).or (if wanted = name then some item else none) := by
  unfold setMissing
  by_cases same : wanted = name
  · subst same
    rw [if_pos rfl]
    split
    next present =>
      obtain ⟨value, found⟩ :=
        Option.isSome_iff_exists.mp ((isSome_find?_iff wanted table).mpr present)
      rw [found, Option.some_or]
    next missing =>
      rw [find?_set_self, (find?_eq_none_iff wanted table).mpr missing, Option.none_or]
  · rw [if_neg same, Option.or_none]
    split
    next => rfl
    next => exact find?_set_other same item table

/-- Sets those of some names that are missing. -/
def fill (missing : List String) (item : Item) (table : Table Item) : Table Item :=
  missing.foldr (setMissing · item ·) table

/-- Names that are missing are found with the item, all others as before. -/
theorem find?_fill (wanted : String) (missing : List String) (item : Item) (table : Table Item) :
    find? wanted (fill missing item table) =
      (find? wanted table).or (if wanted ∈ missing then some item else none) := by
  induction missing with
  | nil => rw [fill, List.foldr_nil, if_neg List.not_mem_nil, Option.or_none]
  | cons name missing ih =>
    rw [fill, List.foldr_cons, ← fill, find?_setMissing, ih, Option.or_assoc]
    by_cases same : wanted = name
    · rw [if_pos same, if_pos (List.mem_cons.mpr (.inl same))]
      split <;> rfl
    · simp only [same, if_false, Option.or_none, List.mem_cons, false_or]

end Table

/-- The environment with null for those of some names for which no other context gives a value. -/
def Environment.filling (names : List String) (environment : Environment) : Environment :=
  { environment with crossContexts := Table.fill names .null environment.crossContexts }

namespace Traced

variable {α β : Type} {keep : Diagnostic → Bool}

/-- The run with those of its diagnostics that pass a test. -/
def keeping (keep : Diagnostic → Bool) (run : Traced α) : Traced α :=
  ⟨run.outcome, run.diagnostics.filter keep⟩

/-- What is kept of a sequence is what is kept of its parts. -/
theorem keeping_bind (run : Traced α) (next : α → Traced β) :
    (run >>= next).keeping keep = run.keeping keep >>= fun value => (next value).keeping keep := by
  obtain ⟨outcome, notes⟩ := run
  cases outcome with
  | ok value =>
    show _ = (⟨.ok value, notes.filter keep⟩ : Traced α) >>= _
    rw [bind_ok, bind_ok]
    exact congrArg (Traced.mk _) (List.filter_append notes _)
  | error halt => rfl

/-- Of a run that notes nothing everything is kept. -/
theorem keeping_of_silent {run : Traced α} (silent : run.diagnostics = []) :
    run.keeping keep = run := by
  obtain ⟨outcome, notes⟩ := run
  cases silent
  rfl

theorem keeping_pure (value : α) :
    (Pure.pure value : Traced α).keeping keep = Pure.pure value := rfl

/-- Outcomes note nothing by themselves. -/
theorem silent_ofExcept (outcome : Except Halt α) : (ofExcept outcome).diagnostics = [] := by
  cases outcome <;> rfl

theorem silent_lift {ε : Type} (cause : ε → TechnicalCause) (outcome : Except ε α) :
    (lift cause outcome).diagnostics = [] := by
  cases outcome <;> rfl

theorem keeping_ofExcept (outcome : Except Halt α) :
    (ofExcept outcome).keeping keep = ofExcept outcome :=
  keeping_of_silent (silent_ofExcept outcome)

theorem keeping_lift {ε : Type} (cause : ε → TechnicalCause) (outcome : Except ε α) :
    (lift cause outcome).keeping keep = lift cause outcome :=
  keeping_of_silent (silent_lift cause outcome)

/-- What is kept of a mapping is what is kept of its runs. -/
theorem keeping_mapAll (apply : α → Traced β) (elements : List α) :
    (mapAll apply elements).keeping keep
      = mapAll (fun element => (apply element).keeping keep) elements := by
  induction elements with
  | nil => rfl
  | cons element elements ih => simp only [mapAll, keeping_bind, keeping_pure, ih]

theorem keeping_filterAll (test : α → Traced Bool) (elements : List α) :
    (filterAll test elements).keeping keep
      = filterAll (fun element => (test element).keeping keep) elements := by
  induction elements with
  | nil => rfl
  | cons element elements ih => simp only [filterAll, keeping_bind, keeping_pure, ih]

/-- A search stops at the same element whatever is kept. -/
theorem keeping_search (wanted : Bool) (test : α → Traced Bool) (elements : List α) :
    (search wanted test elements).keeping keep
      = search wanted (fun element => (test element).keeping keep) elements := by
  induction elements with
  | nil => rfl
  | cons element elements ih =>
    simp only [search, keeping_bind]
    refine bind_congr fun holds => ?_
    split
    next => rfl
    next => exact ih

end Traced

namespace Machine

open Traced (keeping_bind keeping_pure keeping_ofExcept keeping_lift)

variable {keep : Diagnostic → Bool} {first second : Machine}

/-- Looking up an item notes nothing. -/
theorem silent_itemOf (machine : Machine) (base position : Value) :
    (machine.itemOf base position).diagnostics = [] := by
  unfold itemOf
  split
  next => rfl
  next target _ =>
    simp only
    split
    next => rfl
    next => split <;> rfl
    next => rfl
    next => exact Traced.silent_lift _ _
    next => rfl

/-- Calling a function notes nothing. -/
theorem silent_callFunction (machine : Machine) (name : String) (arguments : List Value) :
    (machine.callFunction name arguments).diagnostics = [] := by
  unfold callFunction
  split
  next => rfl
  next => split <;> rfl

theorem keeping_holds (operator : String) (condition : Traced Value) :
    (holds operator condition).keeping keep = holds operator (condition.keeping keep) := by
  simp only [holds, keeping_bind, keeping_ofExcept]

/-- Which operands run, and to what their values combine, does not hang on what they note. -/
theorem keeping_combine (machine : Machine) (operator : BinaryOperator) (left : Traced Value)
    (right : Unit → Traced Value) :
    (machine.combine operator left right).keeping keep
      = machine.combine operator (left.keeping keep) fun _ => (right ()).keeping keep := by
  -- The logical operators may leave out the right operand, depending on the left one's value.
  cases found : operator.operation? with
  | some operation =>
    rw [combine_of_operation _ found, combine_of_operation _ found]
    simp only [onBoth, keeping_bind, keeping_ofExcept]
  | none =>
    cases operator with
    | and =>
      simp only [combine, keeping_bind, keeping_holds]
      refine bind_congr fun truth => ?_
      cases truth with
      | true => simp only [if_true, keeping_bind, keeping_holds, keeping_pure]
      | false => rfl
    | or =>
      simp only [combine, keeping_bind, keeping_holds]
      refine bind_congr fun truth => ?_
      cases truth with
      | true => rfl
      | false => simp only [Bool.false_eq_true, if_false, keeping_bind, keeping_holds, keeping_pure]
    | power => simp only [combine, onBoth, keeping_bind, keeping_ofExcept]
    | within => simp only [combine, elements, keeping_bind, keeping_lift, keeping_pure]
    | _ => cases found

/-- The second machine is like the first one, but where names are read it notes only what passes a
test. -/
structure ReadsKeeping (keep : Diagnostic → Bool) (first second : Machine) : Prop where
  evaluator : second.evaluator = first.evaluator
  clock : second.clock = first.clock
  readName : ∀ scope name, second.readName scope name = (first.readName scope name).keeping keep

namespace ReadsKeeping

/-- Combining values reads no names. -/
theorem combine_eq (reads : ReadsKeeping keep first second) (operator : BinaryOperator) :
    second.combine operator = first.combine operator := by
  funext left right
  cases operator with
  | within => simp only [combine, elements, reads.evaluator]
  | power => simp only [combine, reads.evaluator]
  | _ => rfl

theorem itemOf_eq (reads : ReadsKeeping keep first second) (base position : Value) :
    second.itemOf base position = first.itemOf base position := by
  simp only [itemOf, reads.evaluator]

theorem callFunction_eq (reads : ReadsKeeping keep first second) (name : String)
    (arguments : List Value) :
    second.callFunction name arguments = first.callFunction name arguments := by
  simp only [callFunction, reads.evaluator, reads.clock]

mutual

/-- Then so is every evaluation: it notes what the evaluation of the first machine notes and passes
the test. -/
theorem evaluate (reads : ReadsKeeping keep first second) : ∀ (expression : Expression)
    (levels : Nat) (scope : Scope), second.evaluate expression scope levels
      = (first.evaluate expression scope levels).keeping keep
  | expression, 0, scope => by
    rw [evaluate_zero, evaluate_zero, reads.evaluator]
    rfl
  | .literal _, _ + 1, _ => rfl
  | .this, _ + 1, _ => rfl
  | .identifier name, _ + 1, scope => reads.readName scope name
  | .property base name, level + 1, scope => by
    simp only [Machine.evaluate, keeping_bind, keeping_lift, reads.evaluate base, reads.evaluator]
  | .index base position, level + 1, scope => by
    simp only [Machine.evaluate, keeping_bind, reads.evaluate base, reads.evaluate position,
      reads.itemOf_eq, Traced.keeping_of_silent (silent_itemOf _ _ _)]
  | .unary operator operand, level + 1, scope => by
    simp only [Machine.evaluate, keeping_bind, keeping_ofExcept, reads.evaluate operand]
  | .binary operator left right, level + 1, scope => by
    simp only [Machine.evaluate, keeping_combine, reads.combine_eq, reads.evaluate left,
      reads.evaluate right]
  | .call name arguments, level + 1, scope => by
    simp only [Machine.evaluate, keeping_bind, reads.evaluateAll arguments, reads.callFunction_eq,
      Traced.keeping_of_silent (silent_callFunction _ _ _)]
  | .collection items, level + 1, scope => by
    simp only [Machine.evaluate, keeping_bind, keeping_pure, reads.evaluateAll items]
  | .filter source predicate, level + 1, scope => by
    simp only [Machine.evaluate, elements, keeping_bind, keeping_pure, keeping_lift,
      Traced.keeping_filterAll, keeping_holds, reads.evaluate source, reads.evaluate predicate,
      reads.evaluator]
  | .forEach name source body, level + 1, scope => by
    simp only [Machine.evaluate, elements, keeping_bind, keeping_pure, keeping_lift,
      Traced.keeping_mapAll, reads.evaluate source, reads.evaluate body, reads.evaluator]
  | .quantified quantifier name source predicate, level + 1, scope => by
    simp only [Machine.evaluate, elements, keeping_bind, keeping_pure, keeping_lift,
      Traced.keeping_search, keeping_holds, reads.evaluate source, reads.evaluate predicate,
      reads.evaluator]
  | .ifThen condition consequence, level + 1, scope => by
    simp only [Machine.evaluate, keeping_bind, keeping_holds, reads.evaluate condition]
    refine bind_congr fun truth => ?_
    cases truth with
    | true => exact reads.evaluate consequence level scope
    | false => rfl
  | .ifThenElse condition consequence alternative, level + 1, scope => by
    simp only [Machine.evaluate, keeping_bind, keeping_holds, reads.evaluate condition]
    refine bind_congr fun truth => ?_
    cases truth with
    | true => exact reads.evaluate consequence level scope
    | false => exact reads.evaluate alternative level scope
  | .instanceOf operand typeName, level + 1, scope => by
    simp only [Machine.evaluate, keeping_bind, keeping_pure, reads.evaluate operand]
  | .cast typeName operand, level + 1, scope => by
    simp only [Machine.evaluate, keeping_bind, keeping_pure, reads.evaluate operand]

theorem evaluateAll (reads : ReadsKeeping keep first second) : ∀ (expressions : List Expression)
    (levels : Nat) (scope : Scope), second.evaluateAll expressions scope levels
      = (first.evaluateAll expressions scope levels).keeping keep
  | [], _, _ => rfl
  | expression :: rest, levels, scope => by
    simp only [Machine.evaluateAll, keeping_bind, keeping_pure, reads.evaluate expression,
      reads.evaluateAll rest]

end

end ReadsKeeping

/-- A diagnostic of a flagged name for which no other context gives a value. -/
def NotesMissing (machine : Machine) (diagnostic : Diagnostic) : Prop :=
  ∃ name ∈ machine.crossNames, diagnostic = .unresolvedReference name ∧
    Table.find? name machine.environment.crossContexts = none

open Classical in
/-- Reading a name notes nothing else. -/
theorem readsKeeping_missing (machine : Machine) :
    ReadsKeeping (fun diagnostic => decide (machine.NotesMissing diagnostic)) machine machine where
  evaluator := rfl
  clock := rfl
  readName scope name := by
    refine (Eq.symm ?_)
    unfold Machine.readName
    split
    next => rfl
    next =>
      split
      next flagged =>
        split
        next => rfl
        next missing =>
          have noted : machine.NotesMissing (.unresolvedReference name) :=
            ⟨name, flagged, rfl, missing⟩
          exact congrArg (Traced.mk _) (List.filter_cons_of_pos (decide_eq_true noted))
      next =>
        split
        next => rfl
        next => exact keeping_lift _ _

/-- With null for every flagged name that is missing, there is nothing left to note. -/
theorem readsKeeping_filling (machine : Machine) {names : List String}
    (flagged : ∀ name ∈ machine.crossNames, name ∈ names) :
    ReadsKeeping (fun _ => false) machine
      { machine with environment := machine.environment.filling names } where
  evaluator := rfl
  clock := rfl
  readName scope name := by
    unfold Machine.readName Environment.filling
    simp only [Table.find?_fill]
    cases Table.find? name scope.bound with
    | some value => rfl
    | none =>
      -- A value of another context is kept, and null was read for want of one before as well.
      by_cases flag : name ∈ machine.crossNames
      · simp only [if_pos flag, if_pos (flagged name flag)]
        cases Table.find? name machine.environment.crossContexts <;> rfl
      · simp only [if_neg flag]
        cases Table.find? name machine.environment.named with
        | some value => rfl
        | none => exact (keeping_lift _ _).symm

end Machine

namespace Evaluator

variable (evaluator : Evaluator) (formula : Formula) (environment : Environment) (clock : Clock)

/-- Everything that a run notes is a flagged name without a value. -/
theorem noted_of_mem_trace {diagnostic : Diagnostic}
    (noted : diagnostic ∈ (evaluator.trace formula environment clock).diagnostics) :
    ∃ name ∈ formula.flagged, diagnostic = .unresolvedReference name ∧
      Table.find? name environment.crossContexts = none := by
  classical
  have kept := (evaluator.machine formula environment clock).readsKeeping_missing.evaluate
    formula.expression evaluator.maxDepth { this := environment.data }
  -- The run is the same if only such notes are kept, so it has no others.
  rw [trace, kept] at noted
  obtain ⟨name, flagged, named, missing⟩ := of_decide_eq_true (List.mem_filter.mp noted).2
  exact ⟨name, (formula.mem_crossNames_iff name).mp flagged, named, missing⟩

/-- Filling in null for flagged names silences a run and changes nothing else. -/
theorem trace_filling :
    evaluator.trace formula (environment.filling formula.flagged) clock
      = (evaluator.trace formula environment clock).keeping fun _ => false :=
  ((evaluator.machine formula environment clock).readsKeeping_filling fun name flagged =>
    (formula.mem_crossNames_iff name).mp flagged).evaluate
      formula.expression evaluator.maxDepth { this := environment.data }

/-- Named variables of flagged names are not read. -/
theorem trace_of_unflagged {named : Table Value}
    (same : ∀ name, name ∉ formula.flagged →
      Table.find? name named = Table.find? name environment.named) :
    evaluator.trace formula { environment with named } clock
      = evaluator.trace formula environment clock := by
  have outside : Machine.SameOutside
      (evaluator.machine formula { environment with named } clock)
      (evaluator.machine formula environment clock) := ⟨rfl, rfl, rfl, fun _ => rfl⟩
  have agreeOn (names : List String) : Machine.AgreeOn
      (evaluator.machine formula { environment with named } clock)
      (evaluator.machine formula environment clock) names :=
    fun name _ unflagged => same name (unflagged ∘ (formula.mem_crossNames_iff name).mpr)
  exact (outside.evaluate formula.expression evaluator.maxDepth { this := environment.data }
    (agreeOn _) (agreeOn _)).eq

/-- A reference that is not resolved only adds a diagnostic.

* Every diagnostic names a flagged name for which no other context gives a value.
* With null for every such name the result is the same, and there are no diagnostics.
* Named variables that differ under flagged names alone make no difference. -/
theorem unresolved_references_only_noted :
    (∀ diagnostic ∈ (evaluator.run formula environment clock).diagnostics,
      ∃ name ∈ formula.flagged, diagnostic = .unresolvedReference name ∧
        Table.find? name environment.crossContexts = none) ∧
    evaluator.run formula (environment.filling formula.flagged) clock
      = ⟨(evaluator.run formula environment clock).result, []⟩ ∧
    ∀ named, (∀ name, name ∉ formula.flagged →
        Table.find? name named = Table.find? name environment.named) →
      evaluator.run formula { environment with named } clock
        = evaluator.run formula environment clock := by
  cases literal : formula.literal? with
  | some value =>
    simp only [run_of_literal _ literal]
    exact ⟨nofun, trivial, fun _ _ => trivial⟩
  | none =>
    simp only [run_of_trace _ literal]
    refine ⟨fun _ => noted_of_mem_trace evaluator formula environment clock, ?_,
      fun named same => ?_⟩
    · rw [trace_filling, Traced.keeping, List.filter_false]
    · rw [trace_of_unflagged evaluator formula environment clock same]

/-- A driver that no other context knows, beside a vehicle that is bound and so not asked for: one
diagnostic is noted, and the named variable of the driver's name is not read. -/
theorem unresolved_references_only_noted_of_driver :
    let formula : Formula := ⟨.collection [.identifier "Driver",
      .forEach "Vehicle" (.literal (.list [.bool true])) (.identifier "Vehicle")],
      ["Vehicle", "Driver"]⟩
    let environment : Environment := ⟨.null, [("Driver", .bool true)], []⟩
    let report := Evaluator.fixed.run formula environment .fixed
    report = ⟨.ok (.list [.null, .list [.bool true]]), [.unresolvedReference "Driver"]⟩ ∧
      (∃ name ∈ formula.flagged,
        Diagnostic.unresolvedReference "Driver" = .unresolvedReference name ∧
          Table.find? name environment.crossContexts = none) ∧
      Evaluator.fixed.run formula (environment.filling formula.flagged) .fixed
        = ⟨report.result, []⟩ ∧
      Evaluator.fixed.run formula { environment with named := [] } .fixed = report := by
  intro formula environment report
  have noted : report
      = ⟨.ok (.list [.null, .list [.bool true]]), [.unresolvedReference "Driver"]⟩ := by
    simp only [report, run, formula, Formula.literal?, Machine.evaluate, Machine.evaluateAll,
      Machine.elements, maxDepth_fixed, adapters_fixed, AdapterRegistry.elements_standard]
    rfl
  have theory := unresolved_references_only_noted .fixed formula environment .fixed
  refine ⟨noted, theory.1 _ ?_, theory.2.1, theory.2.2 [] fun name unflagged => ?_⟩
  · show _ ∈ report.diagnostics
    rw [noted]
    exact List.mem_singleton_self _
  · have other : name ≠ "Driver" := fun same => unflagged (by simp [same, formula])
    simp [environment, Table.find?, other.symm]

end Evaluator

end Rulebook
