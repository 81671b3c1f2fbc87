import DeskCalculator.Config
import DeskCalculator.Proofs.Binary64.Range
import DeskCalculator.Proofs.Decimal.Positional
import DeskCalculator.Proofs.Evaluator.Value
/-!
An accepted configuration asks for few enough decimals that values are scaled by one or more, and
then no evaluation and no operation on a value leaves the range of doubles.
-/
namespace DeskCalculator

theorem Binary64.isFinite_roundDecimals {places : Int} (nonnegative : 0 ≤ places) {x : Binary64}
    (finite : x.isFinite = true) : (x.roundDecimals places).isFinite = true := by
  unfold roundDecimals
  dsimp only
  by_cases scaled : (mul (add x epsilon) (tenTo places)).isFinite = true
  · rw [if_pos scaled]
    have whole := isFinite_round scaled
    have factor := isLarge_tenTo nonnegative
    exact isFinite_div whole factor
  · rw [if_neg scaled]
    exact finite

theorem Decimal.isPositional_hundredth {d : Decimal} (finite : d.toBinary64.isFinite = true) :
    IsPositional (d.toBinary64.div (.ofNat 100)).display := by
  have hundred : Binary64.IsLarge (.ofNat 100) := Binary64.isLarge_ofNat (by decide)
  have quotient := Binary64.isFinite_div finite hundred
  obtain ⟨body, positional, shown⟩ := Binary64.display_of_isFinite quotient
  unfold toBinary64 at finite shown ⊢
  obtain ⟨m, storable, same⟩ := Binary64.exists_ofQuotient_eq finite
  rw [same] at shown ⊢
  rw [Binary64.isBelowZero_div storable hundred, if_neg (by decide)] at shown
  rw [shown]
  exact positional

namespace Config

theorem decimalPlaces_of_validate {config : Config} (accepted : config.validate = .ok config) :
    config.decimalPlaces.toNat ≤ 15 := by
  unfold validate at accepted
  by_cases marker : Text.trim config.errorMarker = []
  · rw [if_pos marker] at accepted
    cases accepted
  · rw [if_neg marker] at accepted
    by_cases many : maxDecimalPlaces < config.decimalPlaces
    · rw [if_pos many] at accepted
      cases accepted
    · exact UInt32.not_lt.1 many

theorem roundingExponent_nonneg {config : Config} (accepted : config.validate = .ok config) :
    0 ≤ config.evaluator.roundingExponent := by
  rw [Evaluator.roundingExponent_eq (decimalPlaces_of_validate accepted)]
  exact Int.natCast_nonneg _

end Config

namespace Evaluator

theorem isFinite_of_valueOf {e : Evaluator} (places : 0 ≤ e.roundingExponent) {t : Text}
    {v : Binary64} (value : e.valueOf t = .ok v) : v.isFinite = true := by
  obtain ⟨_, x, _, finite, rfl⟩ := (valueOf_eq_ok_iff e t v).1 value
  exact Binary64.isFinite_roundDecimals places finite

end Evaluator

end DeskCalculator
