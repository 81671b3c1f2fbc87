import DeskCalculator.Proofs.Expression.Evaluation
import DeskCalculator.Proofs.Expression.Limited
/-!
The value of a text is the value of its tree. The reader gives one exactly to the sentences that
nest at most 256 deep and whose tree divides by no zero.
-/
namespace DeskCalculator.Expression

open Expression.Tree (total readFrom OperandStep OperatorStep)

variable {α : Type} (arith : Arithmetic α)

/-! ## Where the reader gives up -/

theorem operandStep_eq_error {enclosing : List (Pending Tree)} {pending : Pending Tree} {c : Char}
    (stuck : Tree.operandStep enclosing pending c = none) (before : List (Pending α))
    (waiting : Pending α) (offset : Nat) :
    Reading.operandStep before waiting offset c = .error (.unexpectedChar c offset) := by
  unfold Tree.operandStep at stuck
  split at stuck
  next => cases stuck
  next notSkipped =>
    split at stuck
    next => cases stuck
    next notMinus =>
      split at stuck
      next => cases stuck
      next notOpen =>
        split at stuck
        next => cases stuck
        next notNumber =>
          simp only [Reading.operandStep, if_neg notSkipped, if_neg notMinus, if_neg notOpen,
            if_neg notNumber]

theorem operatorStep_eq_error {enclosing : List (Pending Tree)} {terms : Terms Tree} {c : Char}
    (stuck : Tree.operatorStep enclosing terms c = none) {before : List (Pending α)}
    (evaluated : evaluateEnclosing arith enclosing = .ok before) (values : Terms α)
    (offset : Nat) :
    Reading.operatorStep arith before values offset c =
      .error (if enclosing = [] then .trailingInput offset else .unexpectedChar c offset) := by
  unfold Tree.operatorStep at stuck
  split at stuck
  next => cases stuck
  next notBlank =>
    split at stuck
    next => cases stuck
    next notPlus =>
      split at stuck
      next => cases stuck
      next notMinus =>
        split at stuck
        next => cases stuck
        next notTimes =>
          split at stuck
          next => cases stuck
          next notOver =>
            simp only [Reading.operatorStep, if_neg notBlank, if_neg notPlus, if_neg notMinus,
              if_neg notTimes, if_neg notOver]
            cases enclosing with
            | nil =>
              cases evaluated
              rfl
            | cons pending outer =>
              obtain ⟨earlier, _, evaluated⟩ := bind_eq_ok.1 evaluated
              obtain ⟨waiting, _, evaluated⟩ := bind_eq_ok.1 evaluated
              cases evaluated
              have notClosed : c ≠ ')' := by
                rintro rfl
                cases stuck
              simp only [if_neg notClosed, reduceCtorEq, if_false]

theorem any_isDigit_of_literalValue {literal : Text} {v : α}
    (evaluated : literalValue arith literal = .ok v) : literal.any Char.isDigit = true := by
  by_cases digit : literal.any Char.isDigit = true
  · exact digit
  · have absent : Decimal.ofText? literal = none := if_neg digit
    simp [literalValue, absent] at evaluated

theorem exists_supplyNumber (pending : Pending Tree) {waiting : Pending α} {literal : Text}
    {values : Terms α} (supplied : waiting.supplyNumber arith literal = .ok values) :
    ∃ terms, Tree.supplyNumber pending literal = some terms := by
  obtain ⟨v, evaluated, _⟩ := bind_eq_ok.1 supplied
  exact ⟨_, if_pos (any_isDigit_of_literalValue arith evaluated)⟩

theorem Reading.exists_step {r : Reading Tree} {values next : Reading α} {c : Char} {offset : Nat}
    (evaluated : r.evaluate arith = .ok values) (stepped : values.step arith offset c = .ok next) :
    ∃ after, Tree.step r c = some after := by
  obtain ⟨enclosing, phase⟩ := r
  obtain ⟨before, current, earlier, inside, rfl⟩ := Reading.evaluate_eq_ok arith evaluated
  by_contra stuck
  rw [← Option.isSome_iff_exists, Option.not_isSome_iff_eq_none] at stuck
  cases phase with
  | operand pending =>
    obtain ⟨waiting, _, inside⟩ := bind_eq_ok.1 inside
    cases inside
    have refused := operandStep_eq_error stuck before waiting offset
    exact absurd (refused.symm.trans stepped) (by simp)
  | operator terms =>
    obtain ⟨terms, _, inside⟩ := bind_eq_ok.1 inside
    cases inside
    have refused := operatorStep_eq_error arith stuck earlier terms offset
    exact absurd (refused.symm.trans stepped) (by simp)
  | number pending literal =>
    obtain ⟨waiting, _, inside⟩ := bind_eq_ok.1 inside
    cases inside
    simp only [Tree.step] at stuck
    simp only [Reading.step] at stepped
    split at stepped
    next goes => simp [goes] at stuck
    next ends =>
      obtain ⟨terms, supplied, stepped⟩ := bind_eq_ok.1 stepped
      obtain ⟨trees, read⟩ := exists_supplyNumber arith pending supplied
      have stuck : Tree.operatorStep enclosing trees c = none := by simpa [ends, read] using stuck
      have refused := operatorStep_eq_error arith stuck earlier terms offset
      exact absurd (refused.symm.trans stepped) (by simp)

theorem Tree.OperatorStep.length_le {enclosing : List (Pending Tree)} {terms : Terms Tree}
    {c : Char} {next : Reading Tree} (moved : OperatorStep enclosing terms c next) :
    next.enclosing.length ≤ enclosing.length := by
  cases moved with
  | blank | plus | minus | times | dividedBy => exact Nat.le_refl _
  | closeGroup => exact Nat.le_succ _

theorem Reading.step_overflow {r after : Reading Tree} {values : Reading α} {c : Char}
    (moved : Tree.step r c = some after) (evaluated : r.evaluate arith = .ok values)
    (within : r.enclosing.length ≤ maxDepth) (deeper : maxDepth < after.enclosing.length)
    (offset : Nat) : values.step arith offset c = .error (.nestingTooDeep maxDepth) := by
  obtain ⟨enclosing, phase⟩ := r
  obtain ⟨before, current, earlier, inside, rfl⟩ := Reading.evaluate_eq_ok arith evaluated
  cases phase with
  | operand pending =>
    obtain ⟨waiting, _, inside⟩ := bind_eq_ok.1 inside
    cases inside
    cases OperandStep.of_eq moved with
    | skip | minus | number => exact absurd deeper (Nat.not_lt_of_le within)
    | openGroup =>
      have same : before.length = enclosing.length := length_evaluateEnclosing arith earlier
      have full : ¬before.length < maxDepth := by
        simp only [List.length_cons] at deeper
        omega
      exact if_neg full
  | operator terms =>
    have shrunk := (OperatorStep.of_eq moved).length_le
    exact absurd deeper (Nat.not_lt_of_le (Nat.le_trans shrunk within))
  | number pending literal =>
    simp only [Tree.step] at moved
    split at moved
    next =>
      cases moved
      exact absurd deeper (Nat.not_lt_of_le within)
    next =>
      obtain ⟨terms, _, moved⟩ := Option.bind_eq_some_iff.1 moved
      have shrunk := (OperatorStep.of_eq moved).length_le
      exact absurd deeper (Nat.not_lt_of_le (Nat.le_trans shrunk within))

/-! ## The end of the text -/

theorem exists_close {enclosing : List (Pending Tree)} (terms : Terms Tree)
    {before : List (Pending α)} {values : Terms α} {v : α}
    (evaluated : evaluateEnclosing arith enclosing = .ok before)
    (closed : Reading.close arith before values = .ok v) :
    ∃ e, Tree.close enclosing terms = some e := by
  have same := length_evaluateEnclosing arith evaluated
  cases before with
  | nil =>
    obtain rfl := List.eq_nil_of_length_eq_zero same.symm
    exact ⟨total terms, rfl⟩
  | cons => cases closed

theorem Reading.exists_finish {r : Reading Tree} {values : Reading α} {v : α}
    (evaluated : r.evaluate arith = .ok values) (finished : values.finish arith = .ok v) :
    ∃ e, Tree.finish r = some e := by
  obtain ⟨enclosing, phase⟩ := r
  obtain ⟨before, current, earlier, inside, rfl⟩ := Reading.evaluate_eq_ok arith evaluated
  cases phase with
  | operand =>
    obtain ⟨waiting, _, inside⟩ := bind_eq_ok.1 inside
    cases inside
    cases finished
  | operator terms =>
    obtain ⟨terms, _, inside⟩ := bind_eq_ok.1 inside
    cases inside
    exact exists_close arith _ earlier finished
  | number pending literal =>
    obtain ⟨waiting, _, inside⟩ := bind_eq_ok.1 inside
    cases inside
    obtain ⟨values, supplied, finished⟩ := bind_eq_ok.1 finished
    obtain ⟨terms, read⟩ := exists_supplyNumber arith pending supplied
    obtain ⟨e, closed⟩ := exists_close arith terms earlier finished
    exact ⟨e, by simp [Tree.finish, read, closed]⟩

/-! ## The whole text -/

theorem Reading.exists_readFrom {r : Reading Tree} {values : Reading α} {t : Text} {v : α}
    {offset : Nat} (evaluated : r.evaluate arith = .ok values) (within : r.depth ≤ maxDepth)
    (ran : values.run arith offset t = .ok v) :
    ∃ e, readFrom r t = some e ∧ e.depth ≤ maxDepth := by
  induction t generalizing r values offset with
  | nil =>
    obtain ⟨e, ended⟩ := Reading.exists_finish arith evaluated ran
    exact ⟨e, ended, (Reading.depth_finish ended).symm ▸ within⟩
  | cons c t ih =>
    obtain ⟨later, stepped, ran⟩ := bind_eq_ok.1 ran
    obtain ⟨next, moved⟩ := Reading.exists_step arith evaluated stepped
    have room : next.enclosing.length ≤ maxDepth := by
      by_contra deeper
      have refused := Reading.step_overflow arith moved evaluated
        (Nat.le_trans r.length_le_depth within) (Nat.lt_of_not_le deeper) offset
      exact absurd (refused.symm.trans stepped) (by simp)
    have next_evaluated : next.evaluate arith = .ok later := by
      rw [Reading.evaluate_step arith moved room offset, evaluated]
      exact stepped
    have next_within : next.depth ≤ maxDepth := by
      rw [Reading.depth_step moved]
      exact Nat.max_le.2 ⟨within, room⟩
    obtain ⟨e, read, shallow⟩ := ih next_evaluated next_within ran
    exact ⟨e, by rw [Tree.readFrom_step moved, read], shallow⟩

theorem value_eq_of_derives {t : Text} {e : Tree} (derives : Derives .sum t e)
    (shallow : e.depth ≤ maxDepth) : value arith t = e.value arith := by
  rw [value_eq_valueWithin derives, e.valueWithin_eq_value arith shallow]

/-- No text has two trees, and the reader gives a text a value exactly when it has a tree that nests
at most 256 deep and has that value. -/
theorem value_eq_ok_iff (t : Text) (v : α) :
    (∀ e f, Derives .sum t e → Derives .sum t f → e = f) ∧
      (value arith t = .ok v ↔
        ∃ e, Derives .sum t e ∧ e.depth ≤ 256 ∧ e.value arith = .ok v) := by
  refine ⟨fun e f first second => first.unique second, ?_, ?_⟩
  · intro evaluated
    have within : (Reading.start : Reading Tree).depth ≤ maxDepth := Nat.zero_le _
    obtain ⟨e, read, shallow⟩ :=
      Reading.exists_readFrom arith (evaluate_start arith) within evaluated
    have derives : Derives .sum t e := (derives_iff_ofText? t e).2 read
    exact ⟨e, derives, shallow, (value_eq_of_derives arith derives shallow).symm.trans evaluated⟩
  · rintro ⟨e, derives, shallow, evaluated⟩
    exact (value_eq_of_derives arith derives shallow).trans evaluated

end DeskCalculator.Expression
