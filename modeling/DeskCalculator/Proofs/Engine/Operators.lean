import DeskCalculator.Proofs.Engine.Consistency
import DeskCalculator.Proofs.Evaluator.Range
/-!
Rules on operators that stand next to each other. Most operations cannot break one: they write no
operator, or one after something else. What is left are the operator keys that replace an operator,
and the sign of a number.
-/
namespace DeskCalculator

open Expression

structure Expression.LooksAtOperators (rule : Text → Char → Prop) : Prop where
  other : ∀ p c, isOperator c = false → rule p c
  apart : ∀ p c, Text.endsWith isOperator p = false → rule p c

theorem isOperator_of_not_isDelimiter {c : Char} (other : isDelimiter c = false) :
    isOperator c = false := by
  simp only [isDelimiter, Bool.or_eq_false_iff] at other
  exact other.1.1

namespace Expression.LooksAtOperators

variable {rule : Text → Char → Prop}

theorem append (looks : LooksAtOperators rule) {t u : Text} (keeps : Keeps rule t)
    (others : ∀ c ∈ u, isOperator c = false) : Keeps rule (t ++ u) :=
  keeps.append fun p c member => looks.other p c (others c member)

theorem append_singleton (looks : LooksAtOperators rule) {t : Text} (keeps : Keeps rule t)
    (apart : t.endsWith isOperator = false) (c : Char) : Keeps rule (t ++ [c]) :=
  keeps_append_singleton.2 ⟨keeps, looks.apart t c apart⟩

theorem display (looks : LooksAtOperators rule) (x : Binary64) : Keeps rule x.display := by
  obtain ⟨body, _, others, shown⟩ := x.display_eq
  have plain : ∀ c ∈ body, isOperator c = false := fun c member =>
    isOperator_of_not_isDelimiter (others c member)
  rw [shown]
  split
  · exact looks.append (looks.append_singleton keeps_nil rfl '-') plain
  · exact looks.append keeps_nil plain

theorem percent (looks : LooksAtOperators rule) {t : Text} {n : LastNumber} {d : Decimal}
    (keeps : Keeps rule t) (found : LastNumber.atEnd? t = some n)
    (finite : d.toBinary64.isFinite = true) :
    Keeps rule (n.withDigits (d.toBinary64.div (.ofNat 100)).display) := by
  obtain ⟨found, atEnd⟩ := LastNumber.find?_of_atEnd? found
  rw [← (LastNumber.isLastOf_of_find? found).text, n.text_eq] at keeps
  rw [LastNumber.withDigits, atEnd, List.append_nil]
  apply looks.append keeps.before
  intro c member
  exact isOperator_of_not_isDelimiter
    ((Decimal.isPositional_hundredth finite).isDelimiter_eq_false c member)

end Expression.LooksAtOperators

/-- An operation keeps a rule on operators when its operator may take the place of another, and when
the last number may be negated. -/
theorem Engine.keeps_apply {rule : Text → Char → Prop} (looks : LooksAtOperators rule) {e : Engine}
    {op : Operation} (consistent : e.IsConsistent) (keeps : Keeps rule e.expression)
    (replaced : ∀ o t c, op = .operator o → e.expression = t ++ [c] → isOperator c = true →
      rule t o.symbol)
    (negated : ∀ n : LastNumber, n.IsLastOf e.expression → Keeps rule n.negated) :
    Keeps rule (e.apply op).expression := by
  have change := e.change_apply op
  generalize e.apply op = e' at change
  cases change with
  | none => exact keeps
  | digit digit =>
    have other := isOperator_eq_false (isNumeric_of_isDigit digit)
    exact looks.append (holds_resumed keeps_nil keeps) (List.forall_mem_singleton.2 other)
  | point =>
    exact looks.append (holds_resumed keeps_nil keeps) (List.forall_mem_singleton.2 rfl)
  | leadingPoint =>
    exact looks.append (holds_resumed keeps_nil keeps)
      (List.forall_mem_cons.2 ⟨rfl, List.forall_mem_singleton.2 rfl⟩)
  | sign start => exact looks.append_singleton keeps start.endsWith_isOperator '-'
  | replace split operator _ _ =>
    rw [split] at keeps
    exact keeps_append_singleton.2 ⟨keeps.before, replaced _ _ _ rfl split operator⟩
  | append inside apart => exact looks.append_singleton keeps (consistent.apart apart) _
  | negate found => exact negated _ (LastNumber.isLastOf_of_find? found)
  | delete split =>
    rw [split] at keeps
    exact keeps.before
  | clear | fail => exact keeps_nil
  | openGroup | closeGroup => exact looks.append keeps (List.forall_mem_singleton.2 rfl)
  | percent found _ finite => exact looks.percent keeps found finite
  | root | square | result => exact looks.display _

end DeskCalculator
