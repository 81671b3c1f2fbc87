import DeskCalculator.Proofs.Engine.Closing
import DeskCalculator.Proofs.Evaluator.Display
/-!
Results as expressions. A square root, a square and the equals key put the number that they come to
in the place of the expression, as it is shown. What is shown of a finite number reads back without
an error as that number, so the calculation goes on from the very number that is seen. Rounding to
places that stand for a negative power of ten may come to no number, and then what is shown is no
expression.
-/
namespace DeskCalculator

open Expression

namespace Engine

/-- The operations that put a number in the place of the expression, and the number. -/
inductive ComesTo (e : Engine) : Operation → Binary64 → Prop where
  | root {v : Binary64} (value : e.value? = some v) (nonnegative : v.isBelowZero = false) :
      ComesTo e .squareRoot v.sqrt
  | square {v : Binary64} (value : e.value? = some v) (finite : (v.mul v).isFinite = true) :
      ComesTo e .square (v.mul v)
  | result {v : Binary64} (nonempty : e.expression ≠ [])
      (value : e.evaluator.valueOf e.closed = .ok v) : ComesTo e .equals v

namespace ComesTo

variable {e : Engine} {op : Operation} {v : Binary64}

theorem isFinite (comes : e.ComesTo op v) (places : 0 ≤ e.evaluator.roundingExponent) :
    v.isFinite = true := by
  cases comes with
  | root value nonnegative =>
    exact Binary64.isFinite_sqrt (isFinite_of_value? places value) nonnegative
  | square _ finite => exact finite
  | result _ value => exact Evaluator.isFinite_of_valueOf places value

theorem apply_eq (comes : e.ComesTo op v) :
    ∃ kind, e.apply op = { e.replaceWith v with latest := kind } := by
  cases comes with
  | root value nonnegative =>
    refine ⟨e.latest, ?_⟩
    change e.squareRoot = _
    rw [squareRoot, value]
    exact if_neg (by simp [nonnegative])
  | square value finite =>
    refine ⟨e.latest, ?_⟩
    change e.square = _
    rw [Engine.square, value]
    exact if_pos finite
  | result nonempty value =>
    refine ⟨.equals, ?_⟩
    rw [apply_equals nonempty, value]

theorem shows (comes : e.ComesTo op v) :
    (e.apply op).expression = v.display ∧ (e.apply op).readout = v.display := by
  obtain ⟨kind, after⟩ := comes.apply_eq
  obtain ⟨body, nonempty, _, shown⟩ := v.display_eq
  have something : v.display ≠ [] := by
    rw [shown]
    split
    · exact List.cons_ne_nil _ _
    · exact nonempty
  rw [after]
  exact ⟨rfl, if_neg something⟩

end ComesTo

/-- What is shown of a finite number has no foreign character, is read to its end, and its value is
the number; only the sign of a zero is lost. Where a square root, a square or the equals key comes
to a number, the number is shown in the place of the expression. That is a sentence if and only if
the number is finite, and then its value before any rounding is the number. The number is finite
unless the places of the evaluator stand for a negative power of ten, as no accepted configuration
has it. -/
theorem value_display_of_comesTo (v : Binary64) :
    (v.isFinite = true →
      firstForeign? (normalize v.display) = none ∧
        value Binary64.arithmetic (normalize v.display) = .ok v.dropZeroSign) ∧
      ∀ (e : Engine) (op : Operation), e.ComesTo op v →
        (e.apply op).expression = v.display ∧ (e.apply op).readout = v.display ∧
          (IsSentence (e.apply op).expression ↔ v.isFinite = true) ∧
          (v.isFinite = true → ∃ tree, Derives .sum (e.apply op).expression tree ∧
            tree.value Binary64.arithmetic = .ok v.dropZeroSign) ∧
          (0 ≤ e.evaluator.roundingExponent → v.isFinite = true) := by
  constructor
  · intro finite
    exact Binary64.value_normalize_display finite
  · intro e op comes
    obtain ⟨expression, readout⟩ := comes.shows
    rw [expression]
    refine ⟨rfl, readout, Binary64.isSentence_display_iff v, ?_, comes.isFinite⟩
    intro finite
    obtain ⟨tree, derives, _, evaluated⟩ := Binary64.exists_derives_display finite
    exact ⟨tree, derives, evaluated⟩

theorem value_display_of_comesTo_root :
    let tenth := (Decimal.toBinary64 ⟨1, 1⟩).neg
    let e := (initial ({} : Config).evaluator).run [.digit '2']
    let root := (Decimal.toBinary64 ⟨2, 0⟩).sqrt
    tenth.isFinite = true ∧
      value Binary64.arithmetic (normalize tenth.display) = .ok tenth.dropZeroSign ∧
      0 ≤ e.evaluator.roundingExponent ∧ e.ComesTo .squareRoot root ∧ root.isFinite = true ∧
      (e.apply .squareRoot).readout = root.display ∧
      ∃ tree, Derives .sum (e.apply .squareRoot).expression tree ∧
        tree.value Binary64.arithmetic = .ok root.dropZeroSign := by
  intro tenth e root
  have finite : tenth.isFinite = true := by decide +kernel
  have places : 0 ≤ e.evaluator.roundingExponent := by decide
  have comes : e.ComesTo .squareRoot root := .root (by decide +kernel) (by decide +kernel)
  obtain ⟨reads, _⟩ := value_display_of_comesTo tenth
  obtain ⟨_, results⟩ := value_display_of_comesTo root
  obtain ⟨_, readout, _, sentence, bounded⟩ := results e .squareRoot comes
  have number := bounded places
  exact ⟨finite, (reads finite).2, places, comes, number, readout, sentence number⟩

theorem exists_comesTo_not_isSentence :
    let e := (initial ⟨"Error".toList, 4294966896⟩).run [.digit '1']
    e.evaluator.roundingExponent = -400 ∧ e.ComesTo .equals .notANumber ∧
      (e.apply .equals).expression = "NaN".toList ∧ ¬IsSentence (e.apply .equals).expression := by
  intro e
  have result : e.ComesTo .equals .notANumber := .result (by decide) (by decide +kernel)
  exact ⟨by decide, result, by decide +kernel, by decide +kernel⟩

end Engine

end DeskCalculator
