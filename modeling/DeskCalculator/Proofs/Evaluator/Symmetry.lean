import DeskCalculator.Proofs.Binary64.Symmetry
import DeskCalculator.Proofs.Evaluator.Plain
import DeskCalculator.Proofs.Evaluator.Value
import DeskCalculator.Proofs.Expression.Percent
/-!
The opposite of an expression. A minus sign before the expression in parentheses negates the number
that is rounded, so the two results are opposite exactly if rounding is symmetric there: if no half
is in reach of the nudge.
-/
namespace DeskCalculator

open Expression

namespace Expression

def opposite (t : Text) : Text := '-' :: '(' :: (t ++ [')'])

theorem collapsePair_append_singleton {a b c x : Char} (other : x ≠ b) (t : Text) :
    collapsePair a b c (t ++ [x]) = collapsePair a b c t ++ [x] := by
  fun_induction collapsePair a b c t with
  | case1 _ _ rest same ih =>
    obtain ⟨rfl, rfl⟩ := same
    rw [List.cons_append, List.cons_append, collapsePair, if_pos ⟨rfl, rfl⟩, ih, List.cons_append]
  | case2 d e rest apart ih =>
    rw [List.cons_append, List.cons_append, collapsePair, if_neg apart, ← List.cons_append, ih,
      List.cons_append]
  | case3 t short =>
    cases t with
    | nil => rfl
    | cons d rest =>
      cases rest with
      | nil => exact if_neg fun pair => other pair.2
      | cons e rest => exact absurd rfl (short d e rest)

theorem collapsePair_opposite {a b c : Char} (first : a ≠ '(') (second : b ≠ '(' ∧ b ≠ ')')
    (t : Text) : collapsePair a b c (opposite t) = opposite (collapsePair a b c t) := by
  have outside : ¬('-' = a ∧ ('(' :: (t ++ [')'])).head? = some b) := by
    intro ⟨_, paren⟩
    exact second.1 (Option.some.inj paren).symm
  have inside : ¬('(' = a ∧ (t ++ [')']).head? = some b) := fun pair => first pair.1.symm
  rw [opposite, collapsePair_cons outside, collapsePair_cons inside,
    collapsePair_append_singleton second.2.symm, opposite]

theorem normalize_opposite (t : Text) : normalize (opposite t) = opposite (normalize t) := by
  have expanded : expandPercent (opposite t) = opposite (expandPercent t) := by
    unfold expandPercent opposite
    simp
  unfold normalize collapseSigns
  rw [expanded, collapsePair_opposite (by decide) (by decide),
    collapsePair_opposite (by decide) (by decide), collapsePair_opposite (by decide) (by decide),
    collapsePair_opposite (by decide) (by decide)]

theorem firstForeign?_opposite {t : Text} (allowed : firstForeign? (normalize t) = none) :
    firstForeign? (normalize (opposite t)) = none := by
  rw [normalize_opposite]
  unfold firstForeign? opposite at *
  rw [List.find?_cons_of_neg (by decide), List.find?_cons_of_neg (by decide), List.find?_append,
    allowed]
  rfl

theorem derives_opposite {t : Text} {tree : Tree} (derives : Derives .sum t tree) :
    Derives .sum (opposite t) (.negative (.group tree)) :=
  .product (.operand (.minus (.primary (.group derives))))

theorem value_opposite {t : Text} {tree : Tree} {x : Binary64} (derives : Derives .sum t tree)
    (shallow : tree.depth ≤ 255) (read : value Binary64.arithmetic t = .ok x) :
    value Binary64.arithmetic (opposite t) = .ok x.neg := by
  have inner : tree.value Binary64.arithmetic = .ok x := by
    rw [← read, value_eq_of_derives _ derives (Nat.le_succ_of_le shallow)]
  have outer : (Tree.negative (.group tree)).depth ≤ maxDepth := Nat.succ_le_succ shallow
  rw [value_eq_of_derives _ (derives_opposite derives) outer, Tree.value, Tree.value, inner]
  rfl

end Expression

namespace Evaluator

/-- With up to fifteen places, opposite numbers are rounded to opposite numbers exactly if no half
is in reach, and the same decides whether an expression that has a value and nests at most 255 deep
and the expression in parentheses with a minus sign before it have opposite values; the second has a
value in any case. Signs of zeros do not count. -/
theorem valueOf_opposite_iff {e : Evaluator} (few : e.decimalPlaces.toNat ≤ 15) :
    (∀ x : Binary64, x.isFinite = true →
      ((x.neg.roundDecimals e.roundingExponent).dropZeroSign =
          (x.roundDecimals e.roundingExponent).neg.dropZeroSign ↔
        ¬Binary64.HalfInReach e.decimalPlaces.toNat x.magnitude)) ∧
      ∀ t tree v, Derives .sum (normalize t) tree → tree.depth ≤ 255 → e.valueOf t = .ok v →
        ∃ x w, value Binary64.arithmetic (normalize t) = .ok x ∧ x.isFinite = true ∧
          v = x.roundDecimals e.roundingExponent ∧ e.valueOf (opposite t) = .ok w ∧
          (w.dropZeroSign = v.neg.dropZeroSign ↔
            ¬Binary64.HalfInReach e.decimalPlaces.toNat x.magnitude) := by
  have rounding : ∀ x : Binary64, x.isFinite = true →
      ((x.neg.roundDecimals e.roundingExponent).dropZeroSign =
          (x.roundDecimals e.roundingExponent).neg.dropZeroSign ↔
        ¬Binary64.HalfInReach e.decimalPlaces.toNat x.magnitude) := by
    intro x finite
    rw [roundingExponent_eq few]
    exact Binary64.roundDecimals_neg_iff few finite
  refine ⟨rounding, ?_⟩
  intro t tree v derives shallow evaluated
  obtain ⟨allowed, x, read, finite, rfl⟩ := (valueOf_eq_ok_iff e t v).1 evaluated
  have negated : e.valueOf (opposite t) = .ok (x.neg.roundDecimals e.roundingExponent) := by
    have opposite_read := value_opposite derives shallow read
    rw [← normalize_opposite] at opposite_read
    rw [valueOf_eq_ok_iff]
    have opposite_finite : x.neg.isFinite = true := by rw [Binary64.isFinite_neg, finite]
    exact ⟨firstForeign?_opposite allowed, x.neg, opposite_read, opposite_finite, rfl⟩
  exact ⟨x, _, read, finite, rfl, negated, rounding x finite⟩

theorem valueOf_opposite_iff_quotient :
    let t := "2.5-1/(3)".toList
    let tree : Tree := .binary .subtract (.number "2.5".toList)
      (.binary .divide (.number "1".toList) (.group (.number "3".toList)))
    let v := Decimal.toBinary64 ⟨21666666667, 10⟩
    default.decimalPlaces.toNat ≤ 15 ∧ Derives .sum (normalize t) tree ∧ tree.depth ≤ 255 ∧
      default.valueOf t = .ok v ∧
      ∃ x w, value Binary64.arithmetic (normalize t) = .ok x ∧ x.isFinite = true ∧
        v = x.roundDecimals default.roundingExponent ∧ default.valueOf (opposite t) = .ok w ∧
        (w.dropZeroSign = v.neg.dropZeroSign ↔
          ¬Binary64.HalfInReach default.decimalPlaces.toNat x.magnitude) := by
  intro t tree v
  have few : default.decimalPlaces.toNat ≤ 15 := by decide
  have derives : Derives .sum (normalize t) tree := (derives_iff_ofText? _ _).2 (by decide)
  have shallow : tree.depth ≤ 255 := by decide
  have evaluated : default.valueOf t = .ok v := by decide +kernel
  obtain ⟨_, expressions⟩ := valueOf_opposite_iff few
  exact ⟨few, derives, shallow, evaluated, expressions t tree v derives shallow evaluated⟩

theorem exists_opposite_ne :
    let t := "0.00000000005".toList
    ∃ v w, default.valueOf t = .ok v ∧ default.valueOf (opposite t) = .ok w ∧
      v.display = "0.0000000001".toList ∧ w.display = "0".toList ∧
      w.dropZeroSign ≠ v.neg.dropZeroSign := by
  intro t
  exact ⟨Decimal.toBinary64 ⟨1, 10⟩, Binary64.zero true, by decide +kernel, by decide +kernel,
    by decide +kernel, by decide, by decide +kernel⟩

end Evaluator

end DeskCalculator
