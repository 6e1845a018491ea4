import Rulebook.Proofs.Calendar.Order
import Rulebook.Proofs.Decimal.Order
import Rulebook.Proofs.Value.Equality

/-!
# The order of values

Comparing looks at two values in the same reading as equality does: two numbers, two texts, two
truth values or two moments are ordered, and nothing else is. So being ordered as equal is being
equal, unless both are amounts of money. These are equal in one currency only, while their order
does not look at currencies.
-/
namespace Rulebook.Value

/-- Two readings that have an order, and which one. -/
inductive Ranked : Value → Value → Ordering → Prop
  | number {left right : Decimal} {ordering : Ordering} (amounts : left.order right = ordering) :
      Ranked (number left) (number right) ordering
  | text {left right : String} {ordering : Ordering} (texts : compare left right = ordering) :
      Ranked (text left) (text right) ordering
  | bool {left right : Bool} {ordering : Ordering} (truths : compare left right = ordering) :
      Ranked (bool left) (bool right) ordering
  | dateTime {left right : DateTime} {ordering : Ordering}
      (moments : left.order right = ordering) :
      Ranked (dateTime left) (dateTime right) ordering

namespace Ranked

variable {left middle right : Value} {ordering : Ordering}

theorem lt_trans (first : Ranked left middle .lt) (second : Ranked middle right .lt) :
    Ranked left right .lt := by
  cases first with
  | number amounts => cases second with
    | number amounts' => exact .number (Std.TransCmp.lt_trans amounts amounts')
  | text texts => cases second with
    | text texts' => exact .text (Std.TransCmp.lt_trans texts texts')
  | bool truths => cases second with
    | bool truths' => exact .bool (Std.TransCmp.lt_trans truths truths')
  | dateTime moments => cases second with
    | dateTime moments' => exact .dateTime (Std.TransCmp.lt_trans moments moments')

/-- Readings are ordered as equal just if they have the same content. -/
theorem sameAs_iff (ranked : Ranked left right ordering) : left.sameAs right ↔ ordering = .eq := by
  cases ranked with
  | number amounts => exact beq_iff_eq.trans (amounts ▸ Iff.rfl)
  | text texts => exact beq_iff_eq.trans (texts ▸ Std.LawfulEqOrd.compare_eq_iff_eq.symm)
  | bool truths => exact beq_iff_eq.trans (truths ▸ Std.LawfulEqOrd.compare_eq_iff_eq.symm)
  | dateTime moments => exact beq_iff_eq.trans (moments ▸ DateTime.order_eq_iff.symm)

theorem ne_list (ranked : Ranked left right ordering) :
    (∀ items, left ≠ list items) ∧ ∀ items, right ≠ list items := by
  constructor <;> rintro items rfl <;> cases ranked

end Ranked

/-! ## Comparing and reading -/

/-- Layers on the right can be left out of account. -/
theorem comparison_eq_ordered_iff_of_layerless {left : Value} {ordering : Ordering}
    (layerless : ∀ right, (∀ inner, right ≠ present inner) →
      (left.comparison right = .ordered ordering ↔ Ranked left.reading right.reading ordering))
    (right : Value) :
    left.comparison right = .ordered ordering ↔ Ranked left.reading right.reading ordering := by
  induction right using inductionOnParts with | step right parts
  cases right with
  | present inner => exact parts inner List.mem_cons_self
  | _ => exact layerless _ nofun

section

variable {ordering : Ordering}

theorem ordered_number_iff {left right : Decimal} :
    Comparison.ordered (left.order right) = .ordered ordering ↔
      Ranked (number left) (number right) ordering :=
  ⟨fun | rfl => .number rfl, fun | .number rfl => rfl⟩

theorem ordered_text_iff {left right : String} :
    Comparison.ordered (compare left right) = .ordered ordering ↔
      Ranked (text left) (text right) ordering :=
  ⟨fun | rfl => .text rfl, fun | .text rfl => rfl⟩

theorem ordered_bool_iff {left right : Bool} :
    Comparison.ordered (compare left right) = .ordered ordering ↔
      Ranked (bool left) (bool right) ordering :=
  ⟨fun | rfl => .bool rfl, fun | .bool rfl => rfl⟩

theorem ordered_dateTime_iff {left right : DateTime} :
    Comparison.ordered (left.order right) = .ordered ordering ↔
      Ranked (dateTime left) (dateTime right) ordering :=
  ⟨fun | rfl => .dateTime rfl, fun | .dateTime rfl => rfl⟩

theorem order_ofDate (left right : Date) :
    (DateTime.ofDate left).order (DateTime.ofDate right) = left.order right := by
  have same : Time.midnight.order Time.midnight = .eq := Time.order_eq_iff.mpr rfl
  rw [DateTime.order, DateTime.ofDate, DateTime.ofDate, same, Ordering.then_eq]

end

/-- Values are ordered as their readings are, and those without such readings are not ordered. -/
theorem comparison_eq_ordered_iff (left right : Value) (ordering : Ordering) :
    left.comparison right = .ordered ordering ↔ Ranked left.reading right.reading ordering := by
  induction left using inductionOnParts generalizing right with | step left parts
  -- Without layers on the right the two kinds decide, and the layers on the left are the parts.
  refine comparison_eq_ordered_iff_of_layerless (fun right layerless => ?_) right
  cases left with
  | present inner => exact parts inner List.mem_cons_self right
  | number amount | money amount _ => cases right with
    | present inner => exact absurd rfl (layerless inner)
    | number amount' | money amount' _ => exact ordered_number_iff
    | _ => exact iff_of_false (fun ordered => by cases ordered) (fun ranked => by cases ranked)
  | text characters => cases right with
    | present inner => exact absurd rfl (layerless inner)
    | text characters' => exact ordered_text_iff
    | _ => exact iff_of_false (fun ordered => by cases ordered) (fun ranked => by cases ranked)
  | bool truth => cases right with
    | present inner => exact absurd rfl (layerless inner)
    | bool truth' => exact ordered_bool_iff
    | _ => exact iff_of_false (fun ordered => by cases ordered) (fun ranked => by cases ranked)
  | date day => cases right with
    | present inner => exact absurd rfl (layerless inner)
    | date day' =>
      -- Days are compared as such, but they are read as the midnights that begin them.
      rw [reading, reading, ← ordered_dateTime_iff, order_ofDate]
      rfl
    | dateTime moment => exact ordered_dateTime_iff
    | _ => exact iff_of_false (fun ordered => by cases ordered) (fun ranked => by cases ranked)
  | dateTime moment => cases right with
    | present inner => exact absurd rfl (layerless inner)
    | date _ | dateTime _ => exact ordered_dateTime_iff
    | _ => exact iff_of_false (fun ordered => by cases ordered) (fun ranked => by cases ranked)
  | null | list _ | map _ | absent | entity _ _ _ => cases right with
    | present inner => exact absurd rfl (layerless inner)
    | _ => exact iff_of_false (fun ordered => by cases ordered) (fun ranked => by cases ranked)

/-! ## Ordered as equal -/

/-- Amounts of money that are equal but for their currencies. -/
def EqualInTwoCurrencies (left right : Value) : Prop :=
  ∃ amount currency amount' currency', left.bare = money amount currency ∧
    right.bare = money amount' currency' ∧ Arithmetic.equal amount amount' ∧ currency ≠ currency'

theorem bare_bare : ∀ value : Value, value.bare.bare = value.bare
  | present inner => bare_bare inner
  | null | bool _ | number _ | text _ | date _ | dateTime _ | money _ _ | list _ | map _ | absent
  | entity _ _ _ => rfl

theorem reading_bare : ∀ value : Value, value.bare.reading = value.reading
  | present inner => reading_bare inner
  | null | bool _ | number _ | text _ | date _ | dateTime _ | money _ _ | list _ | map _ | absent
  | entity _ _ _ => rfl

theorem currenciesAgree_bare (left right : Value) :
    left.bare.CurrenciesAgree right.bare ↔ left.CurrenciesAgree right := by
  have same (place : List Nat) (value : Value) :
      value.bare.currencyAt place = value.currencyAt place := by
    cases place <;> simp only [currencyAt, bare_bare]
  simp only [CurrenciesAgree, same]

section

variable {left right : Value} {ordering : Ordering}

theorem ne_list_of_ordered (ordered : left.comparison right = .ordered ordering) :
    (∀ items, left.bare ≠ list items) ∧ ∀ items, right.bare ≠ list items := by
  obtain ⟨noList, noList'⟩ := ((comparison_eq_ordered_iff left right ordering).mp ordered).ne_list
  exact ⟨fun items same => noList _ ((reading_bare left).symm.trans (congrArg reading same)),
    fun items same => noList' _ ((reading_bare right).symm.trans (congrArg reading same))⟩

theorem comparison_of_money {amount amount' : Decimal} {currency currency' : String}
    (atLeft : left.bare = money amount currency) (atRight : right.bare = money amount' currency') :
    left.comparison right = .ordered (Arithmetic.order amount amount') := by
  rw [comparison, atLeft, atRight]
  rfl

theorem currenciesAgree_iff_of_ordered (ordered : left.comparison right = .ordered .eq) :
    left.CurrenciesAgree right ↔ ¬ left.EqualInTwoCurrencies right := by
  obtain ⟨noList, noList'⟩ := ne_list_of_ordered ordered
  -- What is ordered is no list, so currencies can only differ if both sides are amounts of money.
  by_cases atLeft : ∃ amount currency, left.bare = money amount currency
  · obtain ⟨amount, currency, atLeft⟩ := atLeft
    by_cases atRight : ∃ amount currency, right.bare = money amount currency
    · obtain ⟨amount', currency', atRight⟩ := atRight
      have equal : Arithmetic.order amount amount' = .eq :=
        Comparison.ordered.inj ((comparison_of_money atLeft atRight).symm.trans ordered)
      rw [← currenciesAgree_bare, atLeft, atRight, CurrenciesAgree.money_iff]
      constructor
      · rintro same ⟨_, _, _, _, atLeft', atRight', _, distinct⟩
        cases atLeft.symm.trans atLeft'
        cases atRight.symm.trans atRight'
        exact distinct same
      · intro noTwo
        by_contra distinct
        exact noTwo ⟨amount, currency, amount', currency', atLeft, atRight,
          beq_iff_eq.mpr equal, distinct⟩
    · refine iff_of_true (.symm (.of_scalar (fun _ _ same => atRight ⟨_, _, same⟩) noList')) ?_
      exact fun ⟨_, _, _, _, _, same, _⟩ => atRight ⟨_, _, same⟩
  · refine iff_of_true (.of_scalar (fun _ _ same => atLeft ⟨_, _, same⟩) noList) ?_
    exact fun ⟨_, _, _, _, same, _⟩ => atLeft ⟨_, _, same⟩

/-- What is ordered as equal is equal, unless it is so in two currencies. -/
theorem equals_iff_of_ordered (ordered : left.comparison right = .ordered ordering) :
    left.equals right ↔ ordering = .eq ∧ ¬ left.EqualInTwoCurrencies right := by
  have ranked := (comparison_eq_ordered_iff left right ordering).mp ordered
  rw [equals_iff, ReadAlike, ranked.sameAs_iff]
  refine and_congr_right fun equal => ?_
  rw [currenciesAgree_iff_of_ordered (equal ▸ ordered)]

theorem EqualInTwoCurrencies.ordered (equal : left.EqualInTwoCurrencies right) :
    left.comparison right = .ordered .eq := by
  obtain ⟨_, _, _, _, atLeft, atRight, amounts, _⟩ := equal
  rw [comparison_of_money atLeft atRight, beq_iff_eq.mp amounts]

end

theorem comparison_ne_unknown {left right : Value} (present : left.bare ≠ null)
    (present' : right.bare ≠ null) : left.comparison right ≠ .unknown := by
  intro unknown
  unfold comparison at unknown
  split at unknown
  case h_1 isNull => exact present isNull
  case h_2 isNull _ => exact present' isNull
  case h_9 => split at unknown <;> cases unknown
  all_goals cases unknown

theorem lt_trans {left middle right : Value} (first : left.comparison middle = .ordered .lt)
    (second : middle.comparison right = .ordered .lt) : left.comparison right = .ordered .lt := by
  rw [comparison_eq_ordered_iff] at first second ⊢
  exact first.lt_trans second

end Rulebook.Value
