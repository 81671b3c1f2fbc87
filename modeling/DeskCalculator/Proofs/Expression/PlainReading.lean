import DeskCalculator.Proofs.Expression.Errors
import DeskCalculator.Proofs.Expression.Plain
/-!
Where the reader stands in a plain text. An operand is due only where a number may start, and every
number that is begun has a digit; so the reader does not give up over a number.
-/
namespace DeskCalculator

def ExpressionError.isLexical : ExpressionError → Bool
  | foreignChar _ => true
  | malformedNumber _ => true
  | _ => false

namespace Expression

open Expression.Tree (OperandStep OperatorStep)

/-! ## Plain texts -/

/-- Where the reader stands after a plain text: an operand is due only where a number may start, and
a number that was begun has a digit. -/
def Reading.IsAfter (r : Reading Tree) (p : Text) : Prop :=
  match r.phase with
  | .operand _ => IsSignPlace p
  | .number _ literal => literal.any Char.isDigit = true
  | .operator _ => True

theorem isAfter_start : Reading.start.IsAfter [] := .inl rfl

theorem isDigit_of_isSignPlace {p : Text} {c : Char} (place : IsSignPlace p) (point : pointRule p c)
    (starts : c.isDigit = true ∨ c = '.') : c.isDigit = true := by
  rcases starts with digit | rfl
  · exact digit
  · obtain ⟨q, digits, rfl, all, _⟩ := point rfl
    have ends := place.endsWith_isNumeric
    rw [Text.endsWith_append isNumeric q all.1] at ends
    have nothing := eq_nil_of_endsWith (p := []) ends
      (fun d member => isNumeric_of_isDigit (all.2 d member))
    exact absurd nothing all.1

theorem Tree.OperandStep.isAfter {enclosing : List (Pending Tree)} {pending : Pending Tree}
    {p : Text} {c : Char} {next : Reading Tree} (moved : OperandStep enclosing pending c next)
    (place : IsSignPlace p) (plain : plainRule p c) : next.IsAfter (p ++ [c]) := by
  obtain ⟨written, point⟩ := plain
  cases moved with
  | skip skipped =>
    rcases skipped with rfl | rfl
    · cases written
    · exact (isSignPlace_append_singleton p '+').2 (.inl rfl)
  | minus => exact (isSignPlace_append_singleton p '-').2 (.inl rfl)
  | openGroup => exact (isSignPlace_append_singleton p '(').2 (.inr rfl)
  | number starts =>
    change [c].any Char.isDigit = true
    simp [isDigit_of_isSignPlace place point starts]

theorem Tree.OperatorStep.isAfter {enclosing : List (Pending Tree)} {terms : Terms Tree} {c : Char}
    {next : Reading Tree} (moved : OperatorStep enclosing terms c next) (p : Text) :
    next.IsAfter (p ++ [c]) := by
  cases moved with
  | blank | closeGroup => trivial
  | plus => exact (isSignPlace_append_singleton p '+').2 (.inl rfl)
  | minus => exact (isSignPlace_append_singleton p '-').2 (.inl rfl)
  | times => exact (isSignPlace_append_singleton p '*').2 (.inl rfl)
  | dividedBy => exact (isSignPlace_append_singleton p '/').2 (.inl rfl)

theorem Reading.IsAfter.step {r next : Reading Tree} {p : Text} {c : Char} (after : r.IsAfter p)
    (plain : plainRule p c) (moved : Tree.step r c = some next) : next.IsAfter (p ++ [c]) := by
  obtain ⟨enclosing, phase⟩ := r
  cases phase with
  | operand pending => exact (OperandStep.of_eq moved).isAfter after plain
  | operator terms => exact (OperatorStep.of_eq moved).isAfter p
  | number pending literal =>
    simp only [Tree.step] at moved
    split at moved
    next =>
      cases moved
      change (literal ++ [c]).any Char.isDigit = true
      rw [List.any_append, after, Bool.true_or]
    next =>
      obtain ⟨terms, _, moved⟩ := Option.bind_eq_some_iff.1 moved
      exact (OperatorStep.of_eq moved).isAfter p

theorem isAfter_of_advance {t : Text} {r : Reading Tree} (plain : IsPlain t)
    (led : Tree.advance .start t = some r) : r.IsAfter t := by
  induction t using List.reverseRecOn generalizing r with
  | nil =>
    cases led
    exact isAfter_start
  | append_singleton t c ih =>
    rw [Tree.advance_append_singleton] at led
    obtain ⟨earlier, led, moved⟩ := Option.bind_eq_some_iff.1 led
    obtain ⟨before, rule⟩ := isPlain_append_singleton.1 plain
    exact (ih before led).step rule moved

theorem not_isAfter_of_bare {r : Reading Tree} {enclosing : List (Pending Tree)}
    {pending : Pending Tree} {literal : Text} (reading : r = ⟨enclosing, .number pending literal⟩)
    (bare : ¬literal.any Char.isDigit = true) (p : Text) : ¬r.IsAfter p := by
  subst reading
  exact bare

/-! ## Errors -/

variable {α : Type} (arith : Arithmetic α)

theorem IsPlain.isLexical_value {t : Text} {err : ExpressionError} (plain : IsPlain t)
    (failed : value arith t = .error err) : err.isLexical = false := by
  cases givesUp_of_value failed with
  | «at» split stands refused =>
    subst split
    have after := isAfter_of_advance plain.before stands.led
    cases refused with
    | malformedNumber reading bare => exact absurd after (not_isAfter_of_bare reading bare _)
    | divisionByZero | nestingTooDeep | unexpectedChar | trailingInput => rfl
  | «end» stands refused =>
    have after := isAfter_of_advance plain stands.led
    cases refused with
    | malformedNumber reading bare => exact absurd after (not_isAfter_of_bare reading bare _)
    | divisionByZero | unexpectedEnd => rfl

end Expression

end DeskCalculator
