import DeskCalculator.Proofs.Expression.Rule
/-!
The texts in which operators stand alone or with one minus sign after them. Such a text can be cut
in front of anything but an operator, and negating its last number keeps it one.
-/
namespace DeskCalculator.Expression

structure HasSingleSigns (t : Text) : Prop where
  minus : ∀ p a b s, t = p ++ a :: b :: s → isOperator a = true → isOperator b = true → b = '-'
  two : ∀ p a b c s, t = p ++ a :: b :: c :: s →
    ¬(isOperator a = true ∧ isOperator b = true ∧ isOperator c = true)

def signRule (p : Text) (c : Char) : Prop :=
  isOperator c = true → p.endsWith isOperator = true →
    c = '-' ∧ Text.endsWith isOperator p.dropLast = false

theorem hasSingleSigns_iff (t : Text) : HasSingleSigns t ↔ Keeps signRule t := by
  constructor
  · rintro ⟨minus, two⟩ p c s split third ends
    obtain ⟨q, d, rfl, second⟩ := Text.exists_of_endsWith ends
    constructor
    · refine minus q d c s ?_ second third
      rw [split, List.append_assoc, List.singleton_append]
    · rw [List.dropLast_concat, Bool.eq_false_iff]
      intro ends
      obtain ⟨r, e, rfl, first⟩ := Text.exists_of_endsWith ends
      apply two r e d c s _ ⟨first, second, third⟩
      rw [split, List.append_assoc, List.append_assoc, List.singleton_append, List.singleton_append]
  · intro keeps
    constructor
    · intro p a b s split first second
      have parts : t = (p ++ [a]) ++ b :: s := by simpa using split
      have ends : Text.endsWith isOperator (p ++ [a]) = true := by
        rw [Text.endsWith_append_singleton, first]
      exact (keeps _ _ _ parts second ends).1
    · rintro p a b c s split ⟨first, second, third⟩
      have parts : t = (p ++ [a] ++ [b]) ++ c :: s := by simpa using split
      have ends : Text.endsWith isOperator (p ++ [a] ++ [b]) = true := by
        rw [Text.endsWith_append_singleton, second]
      have other := (keeps _ _ _ parts third ends).2
      rw [List.dropLast_concat, Text.endsWith_append_singleton, first] at other
      cases other

namespace HasSingleSigns

theorem nil : HasSingleSigns [] := (hasSingleSigns_iff []).2 keeps_nil

theorem append_singleton {t : Text} {c : Char} :
    HasSingleSigns (t ++ [c]) ↔ HasSingleSigns t ∧ signRule t c := by
  rw [hasSingleSigns_iff, hasSingleSigns_iff, keeps_append_singleton]

theorem before {s t : Text} (signs : HasSingleSigns (s ++ t)) : HasSingleSigns s := by
  rw [hasSingleSigns_iff] at signs ⊢
  exact signs.before

end HasSingleSigns

theorem signRule_append_cons {p q : Text} {c d : Char} (other : isOperator d = false) :
    signRule (p ++ d :: q) c ↔ signRule (d :: q) c := by
  have hides (s : Text) :
      Text.endsWith isOperator (p ++ d :: s) = Text.endsWith isOperator (d :: s) :=
    Text.endsWith_append isOperator p (List.cons_ne_nil d s)
  unfold signRule
  rw [hides]
  rcases List.eq_nil_or_concat q with rfl | ⟨s, e, rfl⟩
  · have alone : Text.endsWith isOperator [d] = false := other
    rw [alone]
    simp
  · rw [List.concat_eq_append, ← List.cons_append, ← List.append_assoc, List.dropLast_concat,
      List.dropLast_concat, hides]

theorem signRule_of_not_isOperator (p : Text) {c : Char} (other : isOperator c = false) :
    signRule p c := by
  intro operator
  rw [other] at operator
  cases operator

theorem hasSingleSigns_append_cons {s t : Text} {d : Char} (other : isOperator d = false) :
    HasSingleSigns (s ++ d :: t) ↔ HasSingleSigns s ∧ HasSingleSigns (d :: t) := by
  rw [hasSingleSigns_iff, hasSingleSigns_iff, hasSingleSigns_iff]
  exact keeps_append_cons (fun p => signRule_of_not_isOperator p other)
    (fun _ _ _ => signRule_append_cons other)

theorem hasSingleSigns_minus {n : LastNumber} {t : Text} (last : n.IsLastOf t)
    (signs : HasSingleSigns (n.before ++ n.sign.toList)) (notMinus : n.sign ≠ some '-') :
    HasSingleSigns (n.before ++ ['-']) := by
  rw [HasSingleSigns.append_singleton]
  refine ⟨signs.before, ?_⟩
  intro _ ends
  obtain ⟨p, c, split, operator⟩ := Text.exists_of_endsWith ends
  refine ⟨rfl, ?_⟩
  rw [split, List.dropLast_concat, Bool.eq_false_iff]
  intro ends
  obtain ⟨q, d, ends, earlier⟩ := Text.exists_of_endsWith ends
  cases sign : n.sign with
  | none =>
    have minus : c = '-' := by
      apply signs.minus q d c [] _ earlier operator
      rw [sign, split, ends, List.append_assoc, List.append_assoc]
      rfl
    have place : IsSignPlace p := by
      rw [ends, isSignPlace_append_singleton]
      exact .inl earlier
    exact last.unsigned sign p c split (.inr minus) place
  | some mark =>
    obtain ⟨plus | minus, _⟩ := last.signed mark sign
    · have minus : mark = '-' := by
        apply signs.minus p c mark [] _ operator
        · rw [plus]
          rfl
        · rw [sign, split, List.append_assoc]
          rfl
      rw [plus] at minus
      exact absurd minus (by decide)
    · exact notMinus (by rw [sign, minus])

theorem HasSingleSigns.negated {n : LastNumber} {t : Text} (last : n.IsLastOf t)
    (signs : HasSingleSigns t) : HasSingleSigns n.negated := by
  obtain ⟨d, digits, starts, numeric⟩ := last.starts
  have other := isOperator_eq_false numeric
  rw [← last.text, n.text_eq, starts, List.cons_append, hasSingleSigns_append_cons other] at signs
  rw [n.negated_eq, starts, List.cons_append, hasSingleSigns_append_cons other]
  obtain ⟨front, rest⟩ := signs
  refine ⟨?_, rest⟩
  unfold LastNumber.flippedSign
  by_cases minus : n.sign = some '-'
  · rw [if_pos minus, List.append_nil]
    exact front.before
  · rw [if_neg minus]
    exact hasSingleSigns_minus last front minus

end DeskCalculator.Expression
