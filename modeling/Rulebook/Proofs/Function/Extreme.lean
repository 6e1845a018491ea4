import Rulebook.Function.Library
import Rulebook.Proofs.Arithmetic.Difference
import Rulebook.Proofs.Calendar.Order

/-!
# The least and the greatest of a collection

One pass over a collection compares each value with the best one so far, and with no other. Still it
notices every value that is not of the same kind as the first: the best so far has that kind, and
values of two kinds do not compare. What it keeps is the best of all that it has passed, and among
equals the leftmost.
-/
namespace Rulebook

/-- What comes strictly before a value comes strictly before all that do not precede it. -/
theorem order_of_strict {α : Type} {order : α → α → Ordering} [Std.TransCmp order]
    {wanted : Ordering} (strict : wanted ≠ .eq) {first second third : α}
    (before : order first second = wanted) (upTo : order second third ≠ wanted.swap) :
    order first third = wanted := by
  cases wanted with
  | lt => exact Std.TransCmp.lt_of_lt_of_isLE before (Ordering.isLE_iff_ne_gt.mpr upTo)
  | eq => exact absurd rfl strict
  | gt => exact Std.TransCmp.gt_of_gt_of_isGE before (Ordering.isGE_iff_ne_lt.mpr upTo)

instance : Std.TransCmp Arithmetic.order :=
  have same : Arithmetic.order = compareOn fun number => (normalize number).toRat := by
    funext left right
    exact Arithmetic.order_eq_compare left right
  same ▸ inferInstance

namespace Value

/-- What a list or a map holds, in order. -/
inductive HasItems : Value → List Value → Prop
  | list (items : List Value) : HasItems (list items) items
  | map (entries : List (String × Value)) : HasItems (map entries) (entries.map (·.2))

/-- What is compared of a value. -/
inductive Kind where
  | amount
  | day
  | moment
deriving DecidableEq

/-- Numbers and money of any currency are of one kind. -/
def kind? : Value → Option Kind
  | number _ | money _ _ => some .amount
  | date _ => some .day
  | dateTime _ => some .moment
  | _ => none

/-- How two values of one kind compare. -/
inductive Compares : Value → Value → Ordering → Prop
  | amounts {left right : Value} {amount amount' : Decimal} (number : left.number? = some amount)
      (number' : right.number? = some amount') :
      Compares left right (Arithmetic.order amount amount')
  | days (day day' : Date) : Compares (date day) (date day') (day.order day')
  | moments (moment moment' : DateTime) :
      Compares (dateTime moment) (dateTime moment') (moment.order moment')

/-- All values are numbers or money, all are dates, or all are date-times. -/
def OneKind (items : List Value) : Prop :=
  ∃ kind, ∀ item ∈ items, item.kind? = some kind

/-- One of the values, with none that is better, and the leftmost such: those to its left are
strictly behind it in the wanted direction. -/
def IsLeftmost (wanted : Ordering) (items : List Value) (best : Value) : Prop :=
  ∃ front back, items = front ++ best :: back ∧
    (∀ item ∈ front, Compares best item wanted) ∧
    ∀ item ∈ back, ∃ ordering, Compares best item ordering ∧ ordering ≠ wanted.swap

/-- What looking for an extreme of some values comes to. -/
structure IsExtreme (wanted : Ordering) (items : List Value)
    (outcome : Except FunctionError Value) : Prop where
  succeeds_iff : (∃ result, outcome = .ok result) ↔ OneKind items
  empty : items = [] → outcome = .ok null
  leftmost : items ≠ [] → ∀ result, outcome = .ok result → IsLeftmost wanted items result

variable {best left middle right candidate : Value} {items : List Value}
  {ordering wanted : Ordering} {kind : Kind}

/-! ## Comparing -/

theorem kind?_eq_amount_iff (value : Value) :
    value.kind? = some .amount ↔ ∃ amount, value.number? = some amount := by
  cases value <;> simp [kind?, number?]

theorem Compares.exists_kind (compares : Compares left right ordering) :
    ∃ kind, left.kind? = some kind ∧ right.kind? = some kind := by
  cases compares with
  | amounts number number' =>
    exact ⟨.amount, (kind?_eq_amount_iff left).mpr ⟨_, number⟩,
      (kind?_eq_amount_iff right).mpr ⟨_, number'⟩⟩
  | days => exact ⟨.day, rfl, rfl⟩
  | moments => exact ⟨.moment, rfl, rfl⟩

theorem exists_compares (atLeft : left.kind? = some kind) (atRight : right.kind? = some kind) :
    ∃ ordering, Compares left right ordering := by
  cases kind with
  | amount =>
    obtain ⟨_, number⟩ := (kind?_eq_amount_iff left).mp atLeft
    obtain ⟨_, number'⟩ := (kind?_eq_amount_iff right).mp atRight
    exact ⟨_, .amounts number number'⟩
  | day =>
    -- Of this kind there are dates only.
    cases left <;> cases atLeft
    cases right <;> cases atRight
    exact ⟨_, .days _ _⟩
  | moment =>
    cases left <;> cases atLeft
    cases right <;> cases atRight
    exact ⟨_, .moments _ _⟩

theorem Compares.swap (compares : Compares left right ordering) :
    Compares right left ordering.swap := by
  cases compares with
  | amounts number number' =>
    rw [← Std.OrientedCmp.eq_swap]
    exact .amounts number' number
  | days =>
    rw [← Std.OrientedCmp.eq_swap]
    exact .days _ _
  | moments =>
    rw [← Std.OrientedCmp.eq_swap]
    exact .moments _ _

theorem Compares.of_strict (strict : wanted ≠ .eq) (before : Compares left middle wanted)
    (upTo : Compares middle right ordering) (notBefore : ordering ≠ wanted.swap) :
    Compares left right wanted := by
  cases before with
  | amounts number number' =>
    cases upTo with
    | amounts again right' =>
      obtain rfl := Option.some.inj (number'.symm.trans again)
      exact order_of_strict strict rfl notBefore ▸ .amounts number right'
    | days | moments => cases number'
  | days =>
    cases upTo with
    | amounts number => cases number
    | days => exact order_of_strict strict rfl notBefore ▸ .days _ _
  | moments =>
    cases upTo with
    | amounts number => cases number
    | moments => exact order_of_strict strict rfl notBefore ▸ .moments _ _

theorem oneKind_cons_iff {first : Value} (known : first.kind? = some kind) :
    OneKind (first :: items) ↔ ∀ item ∈ items, item.kind? = some kind := by
  constructor
  · rintro ⟨kind', same⟩ item member
    rw [same item (.tail _ member), ← same first (.head _), known]
  · exact fun same => ⟨kind, List.forall_mem_cons.mpr ⟨known, same⟩⟩

/-! ## The best so far -/

theorem isLeftmost_singleton (wanted : Ordering) (value : Value) :
    IsLeftmost wanted [value] value :=
  ⟨[], [], rfl, by simp, by simp⟩

/-- A value that is strictly better than the best so far is strictly better than all before it. -/
theorem IsLeftmost.replace (strict : wanted ≠ .eq) (leftmost : IsLeftmost wanted items best)
    (better : Compares candidate best wanted) :
    IsLeftmost wanted (items ++ [candidate]) candidate := by
  obtain ⟨front, back, rfl, ahead, behind⟩ := leftmost
  refine ⟨front ++ best :: back, [], rfl, ?_, by simp⟩
  intro item member
  -- In front of the old best all are strictly behind it, and from it on none precedes it.
  rcases List.mem_append.mp member with inFront | rest
  · refine better.of_strict strict (ahead item inFront) ?_
    cases wanted <;> first | exact absurd rfl strict | decide
  · rcases List.mem_cons.mp rest with rfl | inBack
    · exact better
    · obtain ⟨ordering, compares, notBefore⟩ := behind item inBack
      exact better.of_strict strict compares notBefore

/-- A value that is not strictly better leaves the best so far where it is. -/
theorem IsLeftmost.keep (leftmost : IsLeftmost wanted items best)
    (compares : Compares candidate best ordering) (notBetter : ordering ≠ wanted) :
    IsLeftmost wanted (items ++ [candidate]) best := by
  obtain ⟨front, back, rfl, ahead, behind⟩ := leftmost
  refine ⟨front, back ++ [candidate], by simp, ahead, ?_⟩
  intro item member
  rcases List.mem_append.mp member with inBack | last
  · exact behind item inBack
  · rw [List.mem_singleton.mp last]
    exact ⟨_, compares.swap, fun same => notBetter (Ordering.swap_inj.mp same)⟩

end Value

namespace Builtin

open Value Argument

variable {best candidate : Value} {seen : List Value} {ordering wanted : Ordering} {kind : Kind}

theorem rank_eq_ok_iff : rank candidate best = .ok ordering ↔ Compares candidate best ordering := by
  constructor
  · intro ranked
    unfold rank at ranked
    -- Dates, date-times and amounts, in the order in which they are tried.
    split at ranked
    case h_1 | h_2 =>
      cases ranked
      constructor
    case h_3 =>
      split at ranked
      next number number' =>
        cases ranked
        exact .amounts number' number
      next => cases ranked
  · intro compares
    cases compares with
    | amounts number number' =>
      cases candidate <;> cases number <;> cases best <;> cases number' <;> rfl
    | days | moments => rfl

theorem isRankable_iff (value : Value) :
    isRankable value = true ↔ ∃ kind, value.kind? = some kind := by
  cases value <;> simp [isRankable, kind?]

/-- The state of the pass behind some values: the leftmost best of them, which has their kind. -/
structure Leads (wanted : Ordering) (kind : Kind) (seen : List Value) (best : Value) : Prop where
  ofKind : best.kind? = some kind
  leftmost : IsLeftmost wanted seen best

theorem better_of_rank (ranked : rank candidate best = .ok ordering) :
    better wanted (some best) candidate =
      .ok (some (if ordering = wanted then candidate else best)) := by
  rw [better, ranked]
  rfl

theorem Leads.step (strict : wanted ≠ .eq) (leads : Leads wanted kind seen best)
    (same : candidate.kind? = some kind) :
    ∃ next, better wanted (some best) candidate = .ok (some next) ∧
      Leads wanted kind (seen ++ [candidate]) next := by
  obtain ⟨ordering, compares⟩ := exists_compares same leads.ofKind
  refine ⟨_, better_of_rank (rank_eq_ok_iff.mpr compares), ?_⟩
  split
  next isBetter => exact ⟨same, leads.leftmost.replace strict (isBetter ▸ compares)⟩
  next notBetter => exact ⟨leads.ofKind, leads.leftmost.keep compares notBetter⟩

theorem Leads.refuse (leads : Leads wanted kind seen best) (other : candidate.kind? ≠ some kind) :
    ∃ failure, better wanted (some best) candidate = .error failure := by
  cases ranked : rank candidate best with
  | error failure => exact ⟨failure, by rw [better, ranked]; rfl⟩
  | ok ordering =>
    -- What compares with the best has its kind.
    obtain ⟨kind', atCandidate, atBest⟩ := (rank_eq_ok_iff.mp ranked).exists_kind
    exact absurd (atCandidate.trans (atBest.symm.trans leads.ofKind)) other

/-- The pass gets to the end exactly if all values ahead have the kind of those behind. -/
theorem Leads.run (strict : wanted ≠ .eq) (leads : Leads wanted kind seen best)
    (rest : List Value) :
    ((∃ found, rest.foldlM (better wanted) (some best) = .ok found) ↔
      ∀ item ∈ rest, item.kind? = some kind) ∧
    ∀ found, rest.foldlM (better wanted) (some best) = .ok found →
      ∃ last, found = some last ∧ IsLeftmost wanted (seen ++ rest) last := by
  induction rest generalizing seen best with
  | nil =>
    refine ⟨⟨fun _ => by simp, fun _ => ⟨_, rfl⟩⟩, ?_⟩
    rintro found ⟨⟩
    exact ⟨best, rfl, by rw [List.append_nil]; exact leads.leftmost⟩
  | cons candidate rest ih =>
    rw [List.foldlM_cons]
    by_cases same : candidate.kind? = some kind
    -- The best so far passes to the next value, by the step above.
    · obtain ⟨next, passed, leads⟩ := leads.step strict same
      rw [passed, List.append_cons]
      simpa [same, bind, Except.bind] using ih leads
    · obtain ⟨failure, failed⟩ := leads.refuse same
      rw [failed]
      simp [same, bind, Except.bind]

theorem best_eq {argument : Value} {items : List Value} (held : argument.HasItems items)
    (clock : Clock) :
    Builtin.best wanted [argument] clock =
      ((items.filter (!·.isNull)).foldlM (better wanted) none).map (·.getD .null) := by
  cases held <;> rfl

/-- The first value decides the kind, if it has one. -/
theorem isExtreme_foldlM (strict : wanted ≠ .eq) (items : List Value) :
    IsExtreme wanted items ((items.foldlM (better wanted) none).map (·.getD .null)) := by
  cases items with
  | nil =>
    exact ⟨iff_of_true ⟨_, rfl⟩ ⟨.amount, by simp⟩, fun _ => rfl,
      fun nonempty => absurd rfl nonempty⟩
  | cons first rest =>
    rw [List.foldlM_cons, better]
    -- Nothing is compared with the first value until a second one comes.
    cases known : first.kind? with
    | none =>
      have refused : ¬ isRankable first = true := by simp [isRankable_iff, known]
      rw [if_neg refused]
      refine ⟨iff_of_false nofun ?_, nofun, fun _ _ => nofun⟩
      rintro ⟨kind, same⟩
      simp [same first] at known
    | some kind =>
      have leads : Leads wanted kind [first] first := ⟨known, isLeftmost_singleton wanted first⟩
      obtain ⟨passes, leftmost⟩ := leads.run strict rest
      rw [if_pos ((isRankable_iff first).mpr ⟨kind, known⟩)]
      change IsExtreme wanted (first :: rest)
        ((rest.foldlM (better wanted) (some first)).map (·.getD .null))
      refine ⟨?_, nofun, fun _ result passed => ?_⟩
      · rw [oneKind_cons_iff known, ← passes]
        cases rest.foldlM (better wanted) (some first) <;> simp [Except.map]
      · cases ran : rest.foldlM (better wanted) (some first) with
        | error failure =>
          rw [ran] at passed
          cases passed
        | ok found =>
          obtain ⟨last, rfl, best⟩ := leftmost found ran
          rw [ran] at passed
          cases passed
          exact best

/-- `Min` and `Max` look at the values of a list or a map that are not null. They succeed exactly if
these are all numbers or money, all dates, or all date-times. Without values the result is null;
otherwise it is the leftmost of those that are least, or greatest. -/
theorem extremes_are_leftmost :
    FunctionRegistry.builtins.find? "Min" = some minimum ∧
    FunctionRegistry.builtins.find? "Max" = some maximum ∧
    ∀ argument items, argument.HasItems items → ∀ clock,
      IsExtreme .lt (items.filter (!·.isNull)) (minimum [argument] clock) ∧
      IsExtreme .gt (items.filter (!·.isNull)) (maximum [argument] clock) := by
  refine ⟨rfl, rfl, fun argument items held clock => ?_⟩
  rw [minimum, maximum, best_eq held, best_eq held]
  exact ⟨isExtreme_foldlM (by decide) _, isExtreme_foldlM (by decide) _⟩

/-- Of a number and an amount of money that are equal the first is kept, and a date among amounts is
noticed at the end. -/
theorem extremes_are_leftmost_of_amounts :
    let clock : Clock := ⟨.utc, none, .ofDate ⟨2024, 2, 29, by decide⟩⟩
    let double : Decimal := { mantissa := 2, scale := 0 }
    let single : Decimal := { mantissa := 100, scale := 2 }
    let unit : Decimal := { mantissa := 1, scale := 0 }
    let amounts := [.money double "USD", .number single, .money unit "EUR"]
    let mixed := amounts ++ [.date clock.today]
    minimum [.list (.null :: amounts)] clock = .ok (.number single) ∧
      IsLeftmost .lt amounts (.number single) ∧
      ¬ ∃ result, maximum [.map (mixed.map ("", ·))] clock = .ok result := by
  intro clock double single unit amounts mixed
  obtain ⟨_, _, extreme⟩ := extremes_are_leftmost
  have less : rank (.number single) (.money double "USD") = .ok .lt :=
    congrArg Except.ok (by decide +kernel : Arithmetic.order single double = .lt)
  have same : rank (.money unit "EUR") (.number single) = .ok .eq :=
    congrArg Except.ok (by decide +kernel : Arithmetic.order unit single = .eq)
  have least : minimum [.list (.null :: amounts)] clock = .ok (.number single) := by
    rw [minimum, best_eq (.list _)]
    change ([.number single, .money unit "EUR"].foldlM (better .lt)
      (some (.money double "USD"))).map (·.getD .null) = _
    rw [List.foldlM_cons, better_of_rank less]
    change ([.money unit "EUR"].foldlM (better .lt) (some (.number single))).map (·.getD .null) = _
    rw [List.foldlM_cons, better_of_rank same]
    rfl
  have leftmost := (extreme _ _ (.list (.null :: amounts)) clock).1.leftmost
  refine ⟨least, leftmost (List.cons_ne_nil _ _) _ least, ?_⟩
  rw [(extreme _ _ (.map _) clock).2.succeeds_iff]
  rintro ⟨kind, ofKind⟩
  have first : some Kind.amount = some kind :=
    ofKind (.number single) (by simp [mixed, amounts, isNull])
  have last : some Kind.day = some kind := ofKind (.date clock.today) (by simp [mixed, isNull])
  cases first.trans last.symm

end Builtin

end Rulebook
