import DeskCalculator.Proofs.Engine.Negation
/-!
A hundredth and the opposite of the number at the end of the expression. Neither operation changes
what the other one looks for: negating keeps the digits, and a hundredth is a plain number again, at
the place of the old one and after the same sign. So the two may be done in either order.
-/
namespace DeskCalculator

open Expression

def Decimal.hundredth? (digits : Text) : Option Text :=
  (ofText? digits).bind fun d =>
    if d.toBinary64.isFinite then some (d.toBinary64.div (.ofNat 100)).display else none

theorem Decimal.isPositional_of_hundredth? {digits body : Text}
    (read : hundredth? digits = some body) : IsPositional body := by
  obtain ⟨d, _, within⟩ := Option.bind_eq_some_iff.1 read
  rw [Option.ite_none_right_eq_some] at within
  exact Option.some.inj within.2 ▸ isPositional_hundredth within.1

namespace LastNumber

variable {n : LastNumber} {t : Text}

theorem IsLastOf.exists_negated (last : n.IsLastOf t) (signs : Keeps loneSignRule t) :
    ∃ m : LastNumber, m.IsLastOf n.negated ∧ m.digits = n.digits ∧ m.after = n.after ∧
      m.before ++ m.sign.toList = n.before ++ n.flippedSign := by
  by_cases minus : n.sign = some '-'
  · have flipped : n.flippedSign = [] := if_pos minus
    refine ⟨{ n with sign := none }, ?_, rfl, rfl, by rw [flipped]; rfl⟩
    exact last.unsign minus (last.not_endsWithSign signs)
  · have flipped : n.flippedSign = ['-'] := if_neg minus
    by_cases place : IsSignPlace n.before
    · exact ⟨{ n with sign := some '-' }, last.minus place minus, rfl, rfl, by rw [flipped]; rfl⟩
    · have unmarked : n.sign = none :=
        Option.eq_none_iff_forall_ne_some.2 fun c marked => place (last.signed c marked).2
      refine ⟨{ n with before := n.before ++ ['-'] }, last.afterMinus unmarked place, rfl, rfl, ?_⟩
      rw [flipped, unmarked]
      exact List.append_nil _

theorem IsLastOf.exchange (last : n.IsLastOf t)
    (front : (n.before ++ n.sign.toList).endsWith isNumeric = false) {body : Text}
    (positional : Decimal.IsPositional body) :
    ({ n with digits := body } : LastNumber).IsLastOf (n.withDigits body) where
  text := rfl
  literal := positional.isLiteral
  ends := by
    obtain ⟨s, c, split, digit⟩ := positional.ends
    change body.endsWith Char.isDigit = true
    rw [split, Text.endsWith_append_singleton]
    exact digit
  after := last.after
  longest := by
    intro p c split
    change n.before ++ n.sign.toList = p ++ [c] at split
    rw [split, Text.endsWith_append_singleton, isNumeric, Bool.or_eq_false_iff] at front
    refine ⟨front.1, ?_⟩
    rintro rfl
    cases front.2
  signed := last.signed
  unsigned := last.unsigned

theorem IsLastOf.atEnd?_eq (last : n.IsLastOf t) (atEnd : n.after = []) :
    LastNumber.atEnd? t = some n := by
  rw [LastNumber.atEnd?, find?_eq_some_iff.2 last, Option.filter_some, atEnd]
  rfl

end LastNumber

namespace Engine

variable {e : Engine} {n : LastNumber}

theorem percent_of_hundredth? (found : LastNumber.atEnd? e.expression = some n) {body : Text}
    (read : Decimal.hundredth? n.digits = some body) :
    e.percent = shown { e with expression := n.withDigits body } := by
  obtain ⟨d, text, within⟩ := Option.bind_eq_some_iff.1 read
  rw [Option.ite_none_right_eq_some] at within
  obtain ⟨finite, same⟩ := within
  rw [percent, found]
  dsimp only
  rw [text]
  dsimp only
  rw [if_pos finite, Option.some.inj same]

theorem percent_of_hundredth?_eq_none (found : LastNumber.atEnd? e.expression = some n)
    (past : Decimal.hundredth? n.digits = none) : e.percent = e := by
  rw [percent, found]
  dsimp only
  cases text : Decimal.ofText? n.digits with
  | none => rfl
  | some d =>
    rw [Decimal.hundredth?, text, Option.bind_some] at past
    have infinite : ¬d.toBinary64.isFinite = true := by
      intro finite
      rw [if_pos finite] at past
      cases past
    dsimp only
    rw [if_neg infinite]

example : Decimal.hundredth? (List.replicate 310 '9') = none := by decide +kernel

theorem negate_of_isLastOf (last : n.IsLastOf e.expression) :
    e.negate = shown { e with expression := n.negated } := by
  unfold negate
  rw [LastNumber.find?_eq_some_iff.2 last]

theorem percent_negate (plain : IsPlain e.expression) (signs : Keeps loneSignRule e.expression)
    (found : LastNumber.atEnd? e.expression = some n) :
    e.negate.percent = e.percent.negate ∧
      e.percent.negate.expression =
        n.before ++ n.flippedSign ++ (Decimal.hundredth? n.digits).getD n.digits := by
  obtain ⟨here, atEnd⟩ := LastNumber.find?_of_atEnd? found
  have last := LastNumber.isLastOf_of_find? here
  obtain ⟨m, negated, digits, after, front⟩ := last.exists_negated signs
  have again : LastNumber.atEnd? e.negate.expression = some m := by
    rw [negate_of_isLastOf last]
    exact negated.atEnd?_eq (after.trans atEnd)
  cases read : Decimal.hundredth? n.digits with
  | none =>
    rw [percent_of_hundredth?_eq_none again (by rw [digits, read]),
      percent_of_hundredth?_eq_none found read, negate_of_isLastOf last, Option.getD_none]
    refine ⟨rfl, ?_⟩
    change n.negated = _
    rw [n.negated_eq, atEnd, List.append_nil]
  | some body =>
    have exchanged := last.exchange (endsWith_before_last last plain.runs)
      (Decimal.isPositional_of_hundredth? read)
    have text : ({ n with digits := body } : LastNumber).negated =
        n.before ++ n.flippedSign ++ body := by
      rw [LastNumber.negated_eq]
      change (n.before ++ n.flippedSign) ++ (body ++ n.after) = _
      rw [atEnd, List.append_nil]
    have same : m.withDigits body = n.before ++ n.flippedSign ++ body := by
      rw [LastNumber.withDigits, front, after, atEnd, List.append_nil]
    rw [percent_of_hundredth? again (by rw [digits, read]), percent_of_hundredth? found read,
      negate_of_isLastOf (e := shown { e with expression := n.withDigits body }) exchanged,
      negate_of_isLastOf last, text, same, Option.getD_some]
    exact ⟨rfl, rfl⟩

/-- Under an accepted configuration, wherever an expression ends with a digit, taking a hundredth of
the last number and negating it lead to the same engine in either order: the number has changed its
sign, and its digits are those of the hundredth, or the old ones where they are past the range. -/
theorem percent_negate_run {config : Config} (accepted : config.validate = .ok config)
    (operations : List Operation)
    (ends : ((initial config.evaluator).run operations).expression.endsWith Char.isDigit = true) :
    let e := (initial config.evaluator).run operations
    ∃ n, LastNumber.atEnd? e.expression = some n ∧
      (e.apply .negate).apply .percent = (e.apply .percent).apply .negate ∧
      ((e.apply .percent).apply .negate).expression =
        n.before ++ n.flippedSign ++ (Decimal.hundredth? n.digits).getD n.digits := by
  intro e
  obtain ⟨n, found⟩ := exists_atEnd? ends
  exact ⟨n, found, percent_negate (isPlain_run accepted operations)
    (keeps_loneSignRule_run config.evaluator operations) found⟩

theorem percent_negate_run_group :
    let typed : List Operation :=
      [.digit '2', .operator .multiply, .openGroup, .digit '7', .digit '.', .digit '5', .negate]
    let e := (initial ({} : Config).evaluator).run typed
    ({} : Config).validate = .ok {} ∧ e.expression = "2*(-7.5".toList ∧
      (e.apply .negate).apply .percent = (e.apply .percent).apply .negate ∧
      ((e.apply .percent).apply .negate).expression = "2*(0.075".toList := by
  intro typed e
  have accepted : ({} : Config).validate = .ok {} := by decide
  obtain ⟨n, found, same, text⟩ := percent_negate_run accepted typed (by decide)
  have last : LastNumber.atEnd? e.expression = some ⟨"2*(".toList, some '-', "7.5".toList, []⟩ := by
    decide
  cases found.symm.trans last
  exact ⟨accepted, by decide, same, text.trans (by decide +kernel)⟩

end Engine

end DeskCalculator
