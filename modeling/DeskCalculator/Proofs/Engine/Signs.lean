import DeskCalculator.Proofs.Engine.Operators
import DeskCalculator.Proofs.Expression.Signs
import Mathlib.Data.List.Induction
/-!
When operators get a second one after them that is no sign. Negating a number puts a minus sign
after an operator, and deleting the number leaves both at the end; an operator key then takes the
sign for the operator and replaces it alone. Nothing else breaks the rule.
-/
namespace DeskCalculator

open Expression

namespace Engine

def EndsWithTwoOperators (t : Text) : Prop :=
  ∃ p a b, t = p ++ [a] ++ [b] ∧ isOperator a = true ∧ isOperator b = true

/-! ## One operation -/

theorem looksAtOperators_signRule : LooksAtOperators signRule where
  other := fun p _ other => signRule_of_not_isOperator p other
  apart := by
    intro p c apart _ ends
    rw [apart] at ends
    cases ends

theorem signRule_replacement {t : Text} {c : Char} {op : Operator}
    (signs : HasSingleSigns (t ++ [c])) (operator : isOperator c = true)
    (sound : EndsWithTwoOperators (t ++ [c]) → op = .subtract) : signRule t op.symbol := by
  intro _ ends
  have alone := ((HasSingleSigns.append_singleton.1 signs).2 operator ends).2
  obtain ⟨q, d, rfl, second⟩ := Text.exists_of_endsWith ends
  have minus : op = .subtract := sound ⟨q, d, c, rfl, second, operator⟩
  refine ⟨?_, alone⟩
  rw [minus]
  rfl

theorem hasSingleSigns_apply {e : Engine} {op : Operation} (consistent : e.IsConsistent)
    (signs : HasSingleSigns e.expression)
    (sound : ∀ o, op = .operator o → EndsWithTwoOperators e.expression → o = .subtract) :
    HasSingleSigns (e.apply op).expression := by
  rw [hasSingleSigns_iff]
  apply keeps_apply looksAtOperators_signRule consistent ((hasSingleSigns_iff _).1 signs)
  · intro o t c same split operator
    rw [split] at signs sound
    exact signRule_replacement signs operator (sound o same)
  · intro n last
    exact (hasSingleSigns_iff _).1 (signs.negated last)

theorem not_hasSingleSigns_operator {e : Engine} (consistent : e.IsConsistent) {op : Operator}
    (other : op ≠ .subtract) (two : EndsWithTwoOperators e.expression) :
    ¬HasSingleSigns (e.apply (.operator op)).expression := by
  obtain ⟨p, a, b, split, first, second⟩ := two
  have due : e.operandDue = true := by
    apply consistent.operandDue_of_endsWith
    rw [split, Text.endsWith_append_singleton, second]
  have inside : ¬IsGroupStart (p ++ [a]) := by
    intro start
    have other := start.endsWith_isOperator
    rw [Text.endsWith_append_singleton, first] at other
    cases other
  have replaced : e.typeOperator op = e.operated (p ++ [a] ++ [op.symbol]) :=
    typeOperator_replace e split second due (fun both => inside both.1)
  intro signs
  change HasSingleSigns (e.typeOperator op).expression at signs
  rw [replaced] at signs
  have minus := signs.minus p a op.symbol [] (List.append_assoc p [a] [op.symbol]) first
    (isOperator_symbol op)
  cases op with
  | subtract => exact other rfl
  | add | multiply | divide => exact absurd minus (by decide)

/-! ## Runs -/

/-- Throughout a run every operator after another is a single minus sign, exactly if no operator key
but the minus is typed while the expression ends with two operators. -/
theorem hasSingleSigns_run_iff (evaluator : Evaluator) (operations : List Operation) :
    (∀ earlier later, operations = earlier ++ later →
        HasSingleSigns ((initial evaluator).run earlier).expression) ↔
      ∀ earlier op later, operations = earlier ++ .operator op :: later →
        EndsWithTwoOperators ((initial evaluator).run earlier).expression → op = .subtract := by
  constructor
  · intro signs earlier op later split two
    apply Decidable.byContradiction
    intro other
    have next : operations = (earlier ++ [.operator op]) ++ later := by
      rw [split, List.append_assoc, List.singleton_append]
    have broken := not_hasSingleSigns_operator (isConsistent_run evaluator earlier) other two
    rw [← run_append_singleton] at broken
    exact broken (signs _ _ next)
  · intro sound earlier
    induction earlier using List.reverseRecOn with
    | nil =>
      intro _ _
      exact .nil
    | append_singleton earlier op ih =>
      intro later split
      have before : operations = earlier ++ op :: later := by
        rw [split, List.append_assoc, List.singleton_append]
      rw [run_append_singleton]
      apply hasSingleSigns_apply (isConsistent_run evaluator earlier) (ih (op :: later) before)
      rintro o rfl two
      exact sound earlier o later before two

theorem exists_run_not_hasSingleSigns :
    ({} : Config).validate = .ok {} ∧
      ¬HasSingleSigns ((initial ({} : Config).evaluator).run
        [.digit '1', .operator .multiply, .digit '5', .negate, .deleteLast,
          .operator .add]).expression := by
  refine ⟨by decide, ?_⟩
  intro signs
  have text : ((initial ({} : Config).evaluator).run
      [.digit '1', .operator .multiply, .digit '5', .negate, .deleteLast,
        .operator .add]).expression = ['1'] ++ '*' :: '+' :: [] := by decide
  exact absurd (signs.minus _ _ _ _ text rfl rfl) (by decide)

end Engine

end DeskCalculator
