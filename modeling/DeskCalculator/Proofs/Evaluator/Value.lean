import DeskCalculator.Evaluator.Basic
/-!
When a text has a value: its characters are allowed, it is read to a finite number, and the value is
that number rounded to the places of the evaluator. Otherwise the first foreign character, the
reader or the range of doubles is the reason, in this order.
-/
namespace DeskCalculator.Evaluator

open Expression (value normalize firstForeign?)
open scoped Binary64

theorem roundingExponent_eq {e : Evaluator} (few : e.decimalPlaces.toNat ≤ 15) :
    e.roundingExponent = e.decimalPlaces.toNat := by
  have small : 2 * e.decimalPlaces.toInt32.toBitVec.toNat < 2 ^ 32 := by
    change 2 * e.decimalPlaces.toNat < 2 ^ 32
    omega
  change e.decimalPlaces.toInt32.toBitVec.toInt = _
  rw [BitVec.toInt_eq_toNat_of_lt small]
  rfl

theorem valueOf_eq_ok_iff (e : Evaluator) (t : Text) (v : Binary64) :
    e.valueOf t = .ok v ↔
      firstForeign? (normalize t) = none ∧
        ∃ x, value Binary64.arithmetic (normalize t) = .ok x ∧ x.isFinite = true ∧
          v = x.roundDecimals e.roundingExponent := by
  unfold valueOf
  dsimp only
  constructor
  · intro evaluated
    cases foreign : firstForeign? (normalize t) with
    | some c =>
      rw [foreign] at evaluated
      cases evaluated
    | none =>
      rw [foreign] at evaluated
      cases read : value Binary64.arithmetic (normalize t) with
      | error err =>
        rw [read] at evaluated
        cases evaluated
      | ok x =>
        rw [read] at evaluated
        change (if x.isFinite then _ else _) = _ at evaluated
        by_cases finite : x.isFinite = true
        · rw [if_pos finite] at evaluated
          exact ⟨rfl, x, rfl, finite, (Except.ok.inj evaluated).symm⟩
        · rw [if_neg finite] at evaluated
          cases evaluated
  · intro ⟨allowed, x, read, finite, rounded⟩
    rw [allowed, read, rounded]
    exact if_pos finite

theorem valueOf_of_firstForeign? {e : Evaluator} {t : Text} {c : Char}
    (found : firstForeign? (normalize t) = some c) : e.valueOf t = .error (.foreignChar c) := by
  unfold valueOf
  dsimp only
  rw [found]

theorem error_of_valueOf {e : Evaluator} {t : Text} {err : ExpressionError}
    (allowed : firstForeign? (normalize t) = none) (failed : e.valueOf t = .error err) :
    err = .notFinite ∨ value Binary64.arithmetic (normalize t) = .error err := by
  unfold valueOf at failed
  dsimp only at failed
  rw [allowed] at failed
  cases read : value Binary64.arithmetic (normalize t) with
  | ok x =>
    rw [read] at failed
    change (if x.isFinite then _ else _) = _ at failed
    split at failed
    · cases failed
    · exact .inl (Except.error.inj failed).symm
  | error cause =>
    rw [read] at failed
    exact .inr failed

end DeskCalculator.Evaluator
