import DeskCalculator.Proofs.Engine.Operators
import DeskCalculator.Proofs.Engine.Plain
import DeskCalculator.Proofs.Expression.NegatedTree
import Mathlib.Data.List.Induction
/-!
Negating twice along a run. No run puts an operator after the sign of a number, so the second time
finds the sign that the first one left.
-/
namespace DeskCalculator

open Expression

theorem looksAtOperators_loneSignRule : LooksAtOperators loneSignRule where
  other := by
    intro p c other operator
    rw [other] at operator
    cases operator
  apart := by
    intro p c apart _ sign
    rw [sign.endsWith_isOperator] at apart
    cases apart

namespace Engine

theorem keeps_loneSignRule_run (evaluator : Evaluator) (operations : List Operation) :
    Keeps loneSignRule ((initial evaluator).run operations).expression := by
  induction operations using List.reverseRecOn with
  | nil => exact keeps_nil
  | append_singleton operations op ih =>
    rw [run_append_singleton]
    apply keeps_apply looksAtOperators_loneSignRule (isConsistent_run evaluator operations) ih
    · -- The operator that is replaced stood where the new one does.
      intro o t c _ split operator _
      rw [split] at ih
      exact ih t c [] rfl operator
    · intro n last
      exact LastNumber.keeps_loneSignRule_negated last ih

theorem expression_negate (e : Engine) :
    (e.apply .negate).expression = negateLast e.expression := by
  change e.negate.expression = _
  unfold negate negateLast
  cases LastNumber.find? e.expression <;> rfl

theorem fields_negate (e : Engine) :
    (e.apply .negate).openGroups = e.openGroups ∧ (e.apply .negate).operandDue = e.operandDue ∧
      (e.apply .negate).latest = e.latest := by
  change e.negate.openGroups = _ ∧ e.negate.operandDue = _ ∧ e.negate.latest = _
  unfold negate
  cases LastNumber.find? e.expression <;> exact ⟨rfl, rfl, rfl⟩

/-- Under an accepted configuration negating twice leaves all but the text as it was, and restores
the text too, unless its last number has a plus sign or follows a closing parenthesis. -/
theorem negate_negate_run_iff {config : Config} (accepted : config.validate = .ok config)
    (operations : List Operation) :
    let e := (initial config.evaluator).run operations
    let f := (e.apply .negate).apply .negate
    (f.openGroups = e.openGroups ∧ f.operandDue = e.operandDue ∧ f.latest = e.latest) ∧
      (f.expression = e.expression ↔ ∀ n, LastNumber.find? e.expression = some n →
        n.sign ≠ some '+' ∧ n.before.endsWith (· == ')') = false) := by
  intro e f
  obtain ⟨groups, due, latest⟩ := fields_negate e
  obtain ⟨groups', due', latest'⟩ := fields_negate (e.apply .negate)
  refine ⟨⟨groups'.trans groups, due'.trans due, latest'.trans latest⟩, ?_⟩
  have twice : f.expression = negateLast (negateLast e.expression) := by
    rw [expression_negate, expression_negate]
  rw [twice]
  exact negateLast_negateLast_iff (isPlain_run accepted operations)
    (keeps_loneSignRule_run config.evaluator operations)

theorem negate_negate_run_iff_difference :
    let typed : List Operation := [.openGroup, .digit '1', .operator .subtract, .digit '5']
    let e := (initial ({} : Config).evaluator).run typed
    ({} : Config).validate = .ok {} ∧ e.expression = "(1-5".toList ∧
      (e.apply .negate).expression = "(1--5".toList ∧
      ((e.apply .negate).apply .negate).expression = e.expression := by
  intro typed e
  have accepted : ({} : Config).validate = .ok {} := by decide
  have restored := (negate_negate_run_iff accepted typed).2
  refine ⟨accepted, by decide, by decide, restored.2 ?_⟩
  have found : LastNumber.find? e.expression = some ⟨"(1-".toList, none, ['5'], []⟩ := by decide
  rintro n last
  cases found.symm.trans last
  decide

theorem exists_negate_negate_ne :
    let typed : List Operation := [.openGroup, .digit '1', .closeGroup, .digit '5']
    let e := (initial ({} : Config).evaluator).run typed
    ({} : Config).validate = .ok {} ∧ e.expression = "(1)5".toList ∧
      ((e.apply .negate).apply .negate).expression = "(1)--5".toList ∧
      ((e.apply .negate).apply .negate).expression ≠ e.expression := by
  decide

/-! ## Sentences -/

/-- Under an accepted configuration negating makes a sentence of a sentence. Its tree is the old one
with the last number negated, and it comes to the value or the error of that tree. -/
theorem negate_run_of_derives {config : Config} (accepted : config.validate = .ok config)
    (operations : List Operation) {tree : Tree}
    (derives : Derives .sum ((initial config.evaluator).run operations).expression tree) :
    let e := (initial config.evaluator).run operations
    Derives .sum (e.apply .negate).expression tree.negateLast ∧
      e.evaluator.valueOf (e.apply .negate).expression =
        e.evaluator.valueOfTree tree.negateLast := by
  intro e
  have negated : Derives .sum (e.apply .negate).expression tree.negateLast := by
    rw [expression_negate]
    exact derives.negateLast
  have plain : IsPlain (e.apply .negate).expression := by
    have again := isPlain_run accepted (operations ++ [.negate])
    rwa [run_append_singleton] at again
  exact ⟨negated, e.evaluator.valueOf_eq_valueOfTree plain.written negated⟩

theorem negate_run_of_derives_group :
    let typed : List Operation :=
      [.digit '2', .operator .subtract, .openGroup, .digit '3', .negate, .closeGroup]
    let e := (initial ({} : Config).evaluator).run typed
    let tree : Tree :=
      .binary .subtract (.number ['2']) (.group (.negative (.number ['3'])))
    ({} : Config).validate = .ok {} ∧ Derives .sum e.expression tree ∧
      Derives .sum (e.apply .negate).expression
        (.binary .subtract (.number ['2']) (.group (.number ['3']))) ∧
      e.evaluator.valueOf (e.apply .negate).expression =
        e.evaluator.valueOfTree (.binary .subtract (.number ['2']) (.group (.number ['3']))) := by
  intro typed e tree
  have accepted : ({} : Config).validate = .ok {} := by decide
  have derives : Derives .sum e.expression tree := by
    rw [derives_iff_ofText?]
    decide
  exact ⟨accepted, derives, negate_run_of_derives accepted typed derives⟩

end Engine

end DeskCalculator
