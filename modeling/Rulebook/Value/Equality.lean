import Rulebook.Value.Basic

/-!
# Equality and order of values

Two notions of equality are kept apart. `sameAs` is equality of content: numbers by numeric value,
maps and fields whatever their order, optional layers as they are. `equals` is equality as rules
see it: it looks through optional layers, compares numbers and money amounts in normal form, and a
date with the midnight that begins it.
-/
namespace Rulebook.Value

mutual

/-- Equality of content. -/
def sameAs : Value → Value → Bool
  | null, null => true
  | bool left, bool right => left == right
  | number left, number right => left.order right == .eq
  | text left, text right => left == right
  | date left, date right => left == right
  | dateTime left, dateTime right => left == right
  | money left leftCurrency, money right rightCurrency =>
    left.order right == .eq && leftCurrency == rightCurrency
  | list left, list right => sameItems left right
  | map left, map right => left.length == right.length && sameEntries left right
  | absent, absent => true
  | present left, present right => sameAs left right
  | entity leftType leftIdentity left, entity rightType rightIdentity right =>
    leftType == rightType && leftIdentity == rightIdentity && left.length == right.length
      && sameEntries left right
  | _, _ => false

def sameItems : List Value → List Value → Bool
  | [], [] => true
  | left :: lefts, right :: rights => sameAs left right && sameItems lefts rights
  | _, _ => false

/-- Whether every entry on the left has its like on the right. -/
def sameEntries : List (String × Value) → List (String × Value) → Bool
  | [], _ => true
  | (key, left) :: lefts, rights =>
    (match Table.find? key rights with
      | some right => sameAs left right
      | none => false) && sameEntries lefts rights

end

/-- Equality of two values that are neither lists nor optional. -/
def bareEquals : Value → Value → Bool
  | null, null => true
  | null, _ => false
  | _, null => false
  | money left leftCurrency, money right rightCurrency =>
    leftCurrency == rightCurrency && Arithmetic.equal left right
  | date day, dateTime moment => DateTime.ofDate day == moment
  | dateTime moment, date day => DateTime.ofDate day == moment
  | left, right =>
    match left.number?, right.number? with
    | some leftAmount, some rightAmount => Arithmetic.equal leftAmount rightAmount
    | _, _ => sameAs left right

mutual

/-- Equality as rules see it. -/
def equals : Value → Value → Bool
  | present left, right => equals left right
  | list lefts, right =>
    match right.bare with
    | list rights => equalItems lefts rights
    | _ => false
  | left, right => bareEquals left.bare right.bare

def equalItems : List Value → List Value → Bool
  | [], [] => true
  | left :: lefts, right :: rights => equals left right && equalItems lefts rights
  | _, _ => false

end

/-- What comparing two values tells: they have no common order, one of them is null, or how they
are ordered. -/
inductive Comparison where
  | incomparable
  | unknown
  | ordered (ordering : Ordering)
deriving DecidableEq, Repr

/-- Compares two values through their optional layers; a date counts as the midnight that begins
it when it meets a date-time. -/
def comparison (left right : Value) : Comparison :=
  match left.bare, right.bare with
  | null, _ => .unknown
  | _, null => .unknown
  | text left, text right => .ordered (compare left right)
  | bool left, bool right => .ordered (compare left right)
  | date left, date right => .ordered (left.order right)
  | dateTime left, dateTime right => .ordered (left.order right)
  | date left, dateTime right => .ordered ((DateTime.ofDate left).order right)
  | dateTime left, date right => .ordered (left.order (DateTime.ofDate right))
  | left, right =>
    match left.number?, right.number? with
    | some leftAmount, some rightAmount => .ordered (Arithmetic.order leftAmount rightAmount)
    | _, _ => .incomparable

end Rulebook.Value
