import Rulebook.Evaluation.Traced

/-!
# Runs made in turn

A list of runs is made one after another until one of them halts or settles what is asked. Mapping,
filtering and searching are told apart from this: they put the values of the runs that were made
together, while how many are made, which halt ends them and what they note is the same for all.
-/
namespace Rulebook.Traced

variable {α β : Type}

theorem bind_ok (value : α) (notes : List Diagnostic) (next : α → Traced β) :
    (⟨.ok value, notes⟩ : Traced α) >>= next
      = ⟨(next value).outcome, notes ++ (next value).diagnostics⟩ := rfl

theorem bind_error (halt : Halt) (notes : List Diagnostic) (next : α → Traced β) :
    (⟨.error halt, notes⟩ : Traced α) >>= next = ⟨.error halt, notes⟩ := rfl

theorem pure_eq (value : α) : (Pure.pure value : Traced α) = ⟨.ok value, []⟩ := rfl

instance : LawfulMonad Traced :=
  LawfulMonad.mk' Traced
    (fun run => by
      obtain ⟨outcome, notes⟩ := run
      cases outcome with
      | ok value => exact congrArg (Traced.mk _) (List.append_nil notes)
      | error halt => rfl)
    (fun value next => by
      rw [pure_eq, bind_ok, List.nil_append])
    (fun run next further => by
      obtain ⟨outcome, notes⟩ := run
      cases outcome with
      | ok value =>
        rw [bind_ok, bind_ok]
        obtain ⟨outcome, later⟩ := next value
        cases outcome with
        | ok value => simp only [bind_ok, List.append_assoc]
        | error halt => rfl
      | error halt => rfl)

/-- The runs that are made of a list: all of them, or those up to the first one that halts or
settles what is asked. -/
def made (settles : α → Bool) : List (Traced α) → List (Traced α)
  | [] => []
  | run :: runs =>
    match run.outcome with
    | .ok value => if settles value then [run] else run :: made settles runs
    | .error _ => [run]

/-- The values of the runs that are made, or the halt of the last one, and all that they note. -/
def inTurn (settles : α → Bool) (runs : List (Traced α)) : Traced (List α) :=
  ⟨(made settles runs).mapM (·.outcome), (made settles runs).flatMap (·.diagnostics)⟩

/-- A run that halts is the last one. -/
theorem inTurn_halted (settles : α → Bool) (halt : Halt) (notes : List Diagnostic)
    (runs : List (Traced α)) :
    inTurn settles (⟨.error halt, notes⟩ :: runs) = ⟨.error halt, notes⟩ := by
  simp only [inTurn, made, List.mapM_cons, List.flatMap_cons, List.flatMap_nil, List.append_nil]
  rfl

/-- So is one that settles what is asked. -/
theorem inTurn_settled {settles : α → Bool} {value : α} (settled : settles value = true)
    (notes : List Diagnostic) (runs : List (Traced α)) :
    inTurn settles (⟨.ok value, notes⟩ :: runs) = ⟨.ok [value], notes⟩ := by
  simp only [inTurn, made, settled, if_true, List.mapM_cons, List.mapM_nil, List.flatMap_cons,
    List.flatMap_nil, List.append_nil]
  rfl

/-- Otherwise the rest is made behind it. -/
theorem inTurn_open {settles : α → Bool} {value : α} (unsettled : settles value = false)
    (notes : List Diagnostic) (runs : List (Traced α)) :
    inTurn settles (⟨.ok value, notes⟩ :: runs)
      = (do
          let first ← (⟨.ok value, notes⟩ : Traced α)
          let rest ← inTurn settles runs
          return first :: rest) := by
  simp only [inTurn, made, unsettled, Bool.false_eq_true, if_false, List.mapM_cons,
    List.flatMap_cons, bind_ok]
  cases (made settles runs).mapM (·.outcome) with
  | ok values => simp only [bind_ok, pure_eq, List.append_nil]; rfl
  | error halt => rfl

/-- Mapping makes all runs unless one halts. -/
theorem mapAll_eq_inTurn (apply : α → Traced β) (elements : List α) :
    mapAll apply elements = inTurn (fun _ => false) (elements.map apply) := by
  induction elements with
  | nil => rfl
  | cons element elements ih =>
    rw [List.map_cons, mapAll, ih]
    obtain ⟨outcome, notes⟩ := apply element
    cases outcome with
    | ok value => rw [inTurn_open rfl]
    | error halt => rw [inTurn_halted, bind_error]

/-- The elements with a true answer. -/
def selected (elements : List α) (answers : List Bool) : List α :=
  ((elements.zip answers).filter (·.2)).map (·.1)

/-- An element is selected by its own answer. -/
theorem selected_cons (element : α) (elements : List α) (answer : Bool) (answers : List Bool) :
    selected (element :: elements) (answer :: answers)
      = if answer then element :: selected elements answers else selected elements answers := by
  cases answer <;> simp [selected]

/-- Filtering makes all runs unless one halts, and selects by their answers. -/
theorem filterAll_eq_inTurn (test : α → Traced Bool) (elements : List α) :
    filterAll test elements = (do
      let answers ← inTurn (fun _ => false) (elements.map test)
      return selected elements answers) := by
  induction elements with
  | nil => rfl
  | cons element elements ih =>
    rw [List.map_cons, filterAll, ih]
    obtain ⟨outcome, notes⟩ := test element
    cases outcome with
    | ok answer =>
      rw [inTurn_open rfl]
      simp only [bind_assoc, pure_bind, selected_cons]
    | error halt => rw [inTurn_halted, bind_error, bind_error]

/-- Searching makes runs until one gives the wanted answer. -/
theorem search_eq_inTurn (wanted : Bool) (test : α → Traced Bool) (elements : List α) :
    search wanted test elements = (do
      let answers ← inTurn (· == wanted) (elements.map test)
      return answers.contains wanted) := by
  induction elements with
  | nil => rfl
  | cons element elements ih =>
    rw [List.map_cons, search, ih]
    obtain ⟨outcome, notes⟩ := test element
    cases outcome with
    | ok answer =>
      by_cases settled : answer = wanted
      · rw [inTurn_settled (by simpa using settled)]
        simp [bind_ok, pure_eq, settled]
      · rw [inTurn_open (by simpa using settled)]
        have other (answers : List Bool) :
            (answer :: answers).contains wanted = answers.contains wanted := by
          simp [Ne.symm settled]
        simp only [bind_assoc, pure_bind]
        rw [bind_ok, bind_ok, if_neg settled]
        simp only [other]
    | error halt => rw [inTurn_halted, bind_error, bind_error]

end Rulebook.Traced
