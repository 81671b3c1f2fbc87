import DeskCalculator.Proofs.Binary64.Negation
import DeskCalculator.Proofs.Decimal.ReadBack
import DeskCalculator.Proofs.Evaluator.Plain
/-!
The display form of a finite number is an expression with that number as its value: the digits of a
decimal that reads as its magnitude, after a minus sign for a number below zero. Only the sign of a
zero is not shown.
-/
namespace DeskCalculator

open Expression

namespace Decimal

theorem IsPositional.isNumeral {t : Text} (positional : IsPositional t) : IsNumeral t := by
  cases positional with
  | whole digits => exact .whole digits
  | fraction before after => exact .pointBetween before after

theorem value_number_toText (d : Decimal) :
    (Tree.number d.toText).value Binary64.arithmetic = .ok d.toBinary64 := by
  rw [Tree.value, literalValue, ofText?_toText, Binary64.arithmetic]

theorem derives_toText (d : Decimal) : Derives .operand d.toText (.number d.toText) :=
  .primary (.number (isPositional_toText d).isNumeral)

end Decimal

namespace Binary64

theorem exists_display (s : Bool) {m : Nat} (storable : Storable m) :
    ∃ d : Decimal, d.toBinary64 = .finite false m storable ∧
      (finite s m storable).display = if m ≠ 0 ∧ s = true then '-' :: d.toText else d.toText := by
  by_cases noUnits : m = 0
  · subst noUnits
    have nothing : Decimal.toBinary64 ⟨0, 0⟩ = zero false := by
      rw [Decimal.toBinary64, Nat.zero_mul, ofQuotient_zero]
    exact ⟨⟨0, 0⟩, nothing, rfl⟩
  · refine ⟨Decimal.shortest .up m, Decimal.toBinary64_shortest .up storable, ?_⟩
    cases s <;> simp [display, noUnits]

/-- The display form is a sentence without groups, and it has the value that it shows. -/
theorem exists_derives_display {x : Binary64} (finite : x.isFinite = true) :
    ∃ tree, Derives .sum x.display tree ∧ tree.depth = 0 ∧
      tree.value arithmetic = .ok x.dropZeroSign := by
  cases x with
  | notANumber | infinite => cases finite
  | finite s m storable =>
    obtain ⟨d, read, shown⟩ := exists_display s storable
    have number := Decimal.value_number_toText d
    rw [read] at number
    rw [shown]
    by_cases below : m ≠ 0 ∧ s = true
    · obtain ⟨nonzero, rfl⟩ := below
      refine ⟨.negative (.number d.toText), ?_, rfl, ?_⟩
      · rw [if_pos ⟨nonzero, rfl⟩]
        exact .product (.operand (.minus (Decimal.derives_toText d)))
      · rw [Tree.value, number, dropZeroSign_of_ne_zero nonzero]
        rfl
    · refine ⟨.number d.toText, ?_, rfl, ?_⟩
      · rw [if_neg below]
        exact .product (.operand (Decimal.derives_toText d))
      · rw [number]
        by_cases noUnits : m = 0
        · subst noUnits
          rfl
        · have positive : s = false := Bool.eq_false_iff.2 fun sign => below ⟨noUnits, sign⟩
          rw [dropZeroSign_of_ne_zero noUnits, positive]

theorem isSentence_display_iff (x : Binary64) : IsSentence x.display ↔ x.isFinite = true := by
  constructor
  · intro sentence
    cases x with
    | notANumber => exact absurd sentence (by decide)
    | infinite s => cases s <;> exact absurd sentence (by decide)
    | finite => rfl
  · intro finite
    obtain ⟨tree, derives, _⟩ := exists_derives_display finite
    exact ⟨tree, derives⟩

theorem value_normalize_display {x : Binary64} (finite : x.isFinite = true) :
    firstForeign? (normalize x.display) = none ∧
      value arithmetic (normalize x.display) = .ok x.dropZeroSign := by
  obtain ⟨tree, derives, flat, evaluated⟩ := exists_derives_display finite
  have written := (isPlain_display finite).written
  have shallow : tree.depth ≤ maxDepth := by
    rw [flat]
    exact Nat.zero_le _
  refine ⟨firstForeign?_of_isWritten written, ?_⟩
  calc value arithmetic (normalize x.display)
      = value arithmetic x.display :=
        value_normalize_of_isSentence hasSignLaws written ⟨tree, derives⟩
    _ = tree.value arithmetic := value_eq_of_derives arithmetic derives shallow
    _ = .ok x.dropZeroSign := evaluated

end Binary64

end DeskCalculator
