import DeskCalculator.Decimal.Shortest
import DeskCalculator.Proofs.Expression.Numeral
/-!
What numbers look like when they are shown: a finite one is written in positional form, with a
minus sign in front when it is below zero, and no number is shown as nothing.
-/
namespace DeskCalculator

open Expression (IsDigits IsLiteral isLiteral_digits isLiteral_point)

namespace Decimal

inductive IsPositional : Text → Prop where
  | whole {a : Text} (digits : IsDigits a) : IsPositional a
  | fraction {a b : Text} (before : IsDigits a) (after : IsDigits b) :
      IsPositional (a ++ '.' :: b)

theorem isDigits_toDigits (n : Nat) : IsDigits (Nat.toDigits 10 n) :=
  ⟨Nat.toDigits_ne_nil, fun _ member => Nat.isDigit_of_mem_toDigits (by decide) (by decide) member⟩

theorem isDigits_paddedDigits (width n : Nat) : IsDigits (paddedDigits width n) := by
  have digits := isDigits_toDigits n
  constructor
  · intro empty
    exact digits.1 (List.append_eq_nil_iff.1 empty).2
  · intro c member
    rcases List.mem_append.1 member with padding | digit
    · rw [List.eq_of_mem_replicate padding]
      rfl
    · exact digits.2 c digit

theorem isPositional_toText (d : Decimal) : IsPositional d.toText := by
  unfold toText
  split
  · exact .whole (isDigits_toDigits _)
  · exact .fraction (isDigits_toDigits _) (isDigits_paddedDigits _ _)

namespace IsPositional

variable {t : Text}

theorem isLiteral (positional : IsPositional t) : IsLiteral t := by
  cases positional with
  | whole digits => exact isLiteral_digits digits.2
  | fraction before after => exact isLiteral_point before.2 after.2

theorem starts (positional : IsPositional t) : ∃ c s, t = c :: s ∧ c.isDigit = true := by
  cases positional with
  | whole digits =>
    obtain ⟨c, s, rfl⟩ := List.exists_cons_of_ne_nil digits.1
    exact ⟨c, s, rfl, digits.2 c (by simp)⟩
  | @fraction a b before _ =>
    obtain ⟨c, s, rfl⟩ := List.exists_cons_of_ne_nil before.1
    exact ⟨c, s ++ '.' :: b, rfl, before.2 c (by simp)⟩

theorem ends (positional : IsPositional t) : ∃ s c, t = s ++ [c] ∧ c.isDigit = true := by
  cases positional with
  | whole digits =>
    refine ⟨t.dropLast, t.getLast digits.1, (List.dropLast_concat_getLast digits.1).symm, ?_⟩
    exact digits.2 _ (List.getLast_mem digits.1)
  | @fraction a b _ after =>
    refine ⟨a ++ '.' :: b.dropLast, b.getLast after.1, ?_, after.2 _ (List.getLast_mem after.1)⟩
    rw [List.append_assoc, List.cons_append, List.dropLast_concat_getLast]

theorem isDelimiter_eq_false (positional : IsPositional t) :
    ∀ c ∈ t, Expression.isDelimiter c = false := by
  intro c member
  have numeric := (Expression.isNumeric_iff c).1 (positional.isLiteral.numeric c member)
  exact Expression.isDelimiter_eq_false numeric

end IsPositional

end Decimal

namespace Binary64

open Decimal (IsPositional)

theorem display_of_isFinite {x : Binary64} (finite : x.isFinite = true) :
    ∃ body, IsPositional body ∧
      x.display = if x.isBelowZero then '-' :: body else body := by
  cases x with
  | notANumber | infinite => cases finite
  | finite s m h =>
    by_cases zero : m = 0
    · exact ⟨['0'], .whole ⟨by simp, by simp⟩, by simp [display, isBelowZero, zero]⟩
    · exact ⟨_, Decimal.isPositional_toText (Decimal.shortest .up m),
        by simp [display, isBelowZero, zero]⟩

theorem display_eq (x : Binary64) :
    ∃ body, body ≠ [] ∧ (∀ c ∈ body, Expression.isDelimiter c = false) ∧
      x.display = if x.isBelowZero then '-' :: body else body := by
  cases x with
  | notANumber =>
    refine ⟨['N', 'a', 'N'], by simp, ?_, rfl⟩
    exact List.forall_mem_cons.2
      ⟨rfl, List.forall_mem_cons.2 ⟨rfl, List.forall_mem_singleton.2 rfl⟩⟩
  | infinite s =>
    refine ⟨['i', 'n', 'f'], by simp, ?_, rfl⟩
    exact List.forall_mem_cons.2
      ⟨rfl, List.forall_mem_cons.2 ⟨rfl, List.forall_mem_singleton.2 rfl⟩⟩
  | finite s m h =>
    obtain ⟨body, positional, shown⟩ := display_of_isFinite (isFinite_finite s m h)
    obtain ⟨c, t, rfl, _⟩ := positional.starts
    exact ⟨_, List.cons_ne_nil c t, positional.isDelimiter_eq_false, shown⟩

end Binary64

end DeskCalculator
