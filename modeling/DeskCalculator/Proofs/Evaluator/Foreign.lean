import DeskCalculator.Proofs.Evaluator.Plain
import Mathlib.Tactic.IntervalCases
/-!
Foreign characters come before all else. Rewriting neither hides, makes nor moves a character
outside the alphabet, and whatever the reader finds wrong it finds in a text without such
characters; so a text is refused for a character exactly if it has one, and then for the first.
-/
namespace DeskCalculator

namespace Expression

def alphabet : Text := "0123456789+-*/(). %".toList

theorem mem_digits_iff (c : Char) : c ∈ "0123456789".toList ↔ c.isDigit = true := by
  constructor
  · intro member
    have all : "0123456789".toList.all Char.isDigit = true := rfl
    exact List.all_eq_true.1 all c member
  · intro digit
    have bounds : 48 ≤ c.toNat ∧ c.toNat ≤ 57 := by
      simpa [Char.isDigit, UInt32.le_iff_toNat_le] using digit
    rw [← Char.ofNat_toNat c]
    generalize c.toNat = n at bounds
    obtain ⟨lower, upper⟩ := bounds
    interval_cases n <;> decide

theorem mem_alphabet_iff (c : Char) : c ∈ alphabet ↔ (isAllowed c || c == '%') = true := by
  have split : alphabet = "0123456789".toList ++ "+-*/(). %".toList := rfl
  rw [split, List.mem_append, mem_digits_iff]
  simp [isAllowed, isOperator_iff, or_assoc]

theorem firstForeign?_normalize_eq_some_iff (t : Text) (c : Char) :
    firstForeign? (normalize t) = some c ↔
      ∃ p s, t = p ++ c :: s ∧ c ∉ alphabet ∧ ∀ d ∈ p, d ∈ alphabet := by
  rw [firstForeign?_normalize, List.find?_eq_some_iff_append]
  simp only [mem_alphabet_iff, Bool.not_eq_true, Bool.not_eq_eq_eq_not, Bool.not_true, Bool.not_not]
  constructor
  · intro ⟨foreign, p, s, split, before⟩
    exact ⟨p, s, split, foreign, before⟩
  · intro ⟨p, s, split, foreign, before⟩
    exact ⟨foreign, p, s, split, before⟩

theorem value_ne_foreignChar {α : Type} (arith : Arithmetic α) (t : Text) (c : Char) :
    value arith t ≠ .error (.foreignChar c) := by
  intro failed
  cases givesUp_of_value failed with
  | «at» split stands refused => cases refused
  | «end» stands refused => cases refused

end Expression

open Expression

/-- An evaluator refuses a text for a character exactly if that is its first outside the alphabet,
whatever stands before and after it. -/
theorem Evaluator.valueOf_eq_foreignChar_iff (e : Evaluator) (t : Text) (c : Char) :
    e.valueOf t = .error (.foreignChar c) ↔
      ∃ p s, t = p ++ c :: s ∧ c ∉ alphabet ∧ ∀ d ∈ p, d ∈ alphabet := by
  rw [← firstForeign?_normalize_eq_some_iff]
  constructor
  · intro failed
    cases found : firstForeign? (normalize t) with
    | some d =>
      rw [valueOf_of_firstForeign? found] at failed
      cases failed
      rfl
    | none =>
      rcases error_of_valueOf found failed with range | read
      · cases range
      · exact absurd read (value_ne_foreignChar _ _ c)
  · exact valueOf_of_firstForeign?

/-- The superscript is named, although a division by zero and a stray parenthesis stand before it.
-/
example : Evaluator.default.valueOf "1/0)--%+-²*(é".toList = .error (.foreignChar '²') := by rfl

end DeskCalculator
