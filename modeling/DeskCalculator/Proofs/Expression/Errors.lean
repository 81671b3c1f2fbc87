import DeskCalculator.Proofs.Expression.Value
/-!
Why the reader gives up, and where. Each error of a step is one of the values, of the depth, of a
number without a digit, or of a character over which no sentence goes on; and up to the step that
fails the reader goes along with the reader of trees.
-/
namespace DeskCalculator.Expression

open Expression.Tree (readFrom advance OperandStep OperatorStep)

def Reading.HasDigit (r : Reading Tree) : Prop :=
  match r.phase with
  | .number _ literal => literal.any Char.isDigit = true
  | _ => True

inductive StepError (r : Reading Tree) (c : Char) (offset : Nat) : ExpressionError → Prop where
  | divisionByZero : StepError r c offset .divisionByZero
  | nestingTooDeep : StepError r c offset (.nestingTooDeep maxDepth)
  | malformedNumber {enclosing : List (Pending Tree)} {pending : Pending Tree} {literal : Text}
      (reading : r = ⟨enclosing, .number pending literal⟩) (bare : ¬literal.any Char.isDigit = true)
      (ends : ¬continues literal c = true) : StepError r c offset (.malformedNumber literal)
  | unexpectedChar (digit : r.HasDigit) (stuck : Tree.step r c = none)
      (unfinished : Tree.finish r = none) : StepError r c offset (.unexpectedChar c offset)
  | trailingInput (digit : r.HasDigit) (stuck : Tree.step r c = none) {e : Tree}
      (finished : Tree.finish r = some e) : StepError r c offset (.trailingInput offset)

inductive FinishError (r : Reading Tree) : ExpressionError → Prop where
  | divisionByZero : FinishError r .divisionByZero
  | malformedNumber {enclosing : List (Pending Tree)} {pending : Pending Tree} {literal : Text}
      (reading : r = ⟨enclosing, .number pending literal⟩)
      (bare : ¬literal.any Char.isDigit = true) : FinishError r (.malformedNumber literal)
  | unexpectedEnd (digit : r.HasDigit) (unfinished : Tree.finish r = none) :
      FinishError r .unexpectedEnd

theorem step_of_bare {r : Reading Tree} {enclosing : List (Pending Tree)} {pending : Pending Tree}
    {literal : Text} {c : Char} (reading : r = ⟨enclosing, .number pending literal⟩)
    (bare : ¬literal.any Char.isDigit = true) (ends : ¬continues literal c = true) :
    Tree.step r c = none := by
  simp [reading, Tree.step, ends, Tree.supplyNumber, bare]

theorem finish_of_bare {r : Reading Tree} {enclosing : List (Pending Tree)} {pending : Pending Tree}
    {literal : Text} (reading : r = ⟨enclosing, .number pending literal⟩)
    (bare : ¬literal.any Char.isDigit = true) : Tree.finish r = none := by
  simp [reading, Tree.finish, Tree.supplyNumber, bare]

variable {α : Type} (arith : Arithmetic α)

/-! ## The errors of one step -/

theorem supply_error {pending : Pending α} {v : α} {err : ExpressionError}
    (failed : pending.supply arith v = .error err) : err = .divisionByZero := by
  obtain ⟨sum, product, negative⟩ := pending
  rcases product with _ | ⟨left, times | dividedBy⟩
  · cases failed
  · cases failed
  · simp only [Pending.supply] at failed
    generalize (if negative then arith.neg v else v) = operand at failed
    split at failed
    · cases failed
      rfl
    · cases failed

theorem supplyNumber_error {pending : Pending α} {literal : Text} {err : ExpressionError}
    (failed : pending.supplyNumber arith literal = .error err) :
    err = .divisionByZero ∨ ¬literal.any Char.isDigit = true ∧ err = .malformedNumber literal := by
  rw [Pending.supplyNumber] at failed
  by_cases digit : literal.any Char.isDigit = true
  · have read : Decimal.ofText? literal ≠ none := by simp [Decimal.ofText?, digit]
    obtain ⟨d, read⟩ := Option.ne_none_iff_exists'.1 read
    rw [literalValue, read] at failed
    exact .inl (supply_error arith failed)
  · have absent : Decimal.ofText? literal = none := if_neg digit
    rw [literalValue, absent] at failed
    exact .inr ⟨digit, (Except.error.inj failed).symm⟩

theorem Tree.OperandStep.error {enclosing : List (Pending Tree)} {pending : Pending Tree} {c : Char}
    {next : Reading Tree} (moved : OperandStep enclosing pending c next)
    {before : List (Pending α)} {waiting : Pending α} {offset : Nat} {err : ExpressionError}
    (failed : Reading.operandStep before waiting offset c = .error err) :
    err = .nestingTooDeep maxDepth := by
  cases moved with
  | skip skipped =>
    rw [Reading.operandStep, if_pos skipped] at failed
    cases failed
  | minus => cases failed
  | openGroup =>
    change (if before.length < maxDepth then _ else _) = _ at failed
    split at failed
    · cases failed
    · cases failed
      rfl
  | number starts =>
    obtain ⟨notSkipped, notMinus, notOpen⟩ := signless_of_numeric starts
    rw [Reading.operandStep, if_neg notSkipped, if_neg notMinus, if_neg notOpen,
      if_pos starts] at failed
    cases failed

theorem Tree.OperatorStep.error {enclosing : List (Pending Tree)} {terms : Terms Tree} {c : Char}
    {next : Reading Tree} (moved : OperatorStep enclosing terms c next)
    {before : List (Pending α)} (same : before.length = enclosing.length) {values : Terms α}
    {offset : Nat} {err : ExpressionError}
    (failed : Reading.operatorStep arith before values offset c = .error err) :
    err = .divisionByZero := by
  cases moved with
  | blank | plus | minus | times | dividedBy => cases failed
  | closeGroup =>
    cases before with
    | nil => cases same
    | cons waiting earlier =>
      change (waiting.supply arith (values.total arith) >>= _) = _ at failed
      cases supplied : waiting.supply arith (values.total arith) with
      | ok =>
        rw [supplied] at failed
        cases failed
      | error d =>
        rw [supplied] at failed
        cases failed
        exact supply_error arith supplied

theorem operatorStep_error {r : Reading Tree} {enclosing : List (Pending Tree)} {terms : Terms Tree}
    {c : Char} (digit : r.HasDigit) (stepped : Tree.step r c = Tree.operatorStep enclosing terms c)
    (ended : Tree.finish r = Tree.close enclosing terms) {before : List (Pending α)}
    (evaluated : evaluateEnclosing arith enclosing = .ok before) {values : Terms α} {offset : Nat}
    {err : ExpressionError}
    (failed : Reading.operatorStep arith before values offset c = .error err) :
    StepError r c offset err := by
  cases moved : Tree.operatorStep enclosing terms c with
  | some next =>
    have same := length_evaluateEnclosing arith evaluated
    rw [(OperatorStep.of_eq moved).error arith same failed]
    exact .divisionByZero
  | none =>
    have refused := operatorStep_eq_error arith moved evaluated values offset
    rw [← Except.error.inj (refused.symm.trans failed)]
    cases enclosing with
    | nil => exact .trailingInput digit (stepped.trans moved) ended
    | cons => exact .unexpectedChar digit (stepped.trans moved) ended

theorem Reading.step_error {r : Reading Tree} {values : Reading α} {c : Char} {offset : Nat}
    {err : ExpressionError} (evaluated : r.evaluate arith = .ok values)
    (failed : values.step arith offset c = .error err) : StepError r c offset err := by
  obtain ⟨enclosing, phase⟩ := r
  obtain ⟨before, current, earlier, inside, rfl⟩ := Reading.evaluate_eq_ok arith evaluated
  cases phase with
  | operand pending =>
    obtain ⟨waiting, _, inside⟩ := bind_eq_ok.1 inside
    cases inside
    cases moved : Tree.operandStep enclosing pending c with
    | some next =>
      rw [(OperandStep.of_eq moved).error failed]
      exact .nestingTooDeep
    | none =>
      have refused := operandStep_eq_error moved before waiting offset
      rw [← Except.error.inj (refused.symm.trans failed)]
      exact .unexpectedChar trivial moved rfl
  | operator terms =>
    obtain ⟨values, _, inside⟩ := bind_eq_ok.1 inside
    cases inside
    have digit : Reading.HasDigit ⟨enclosing, .operator terms⟩ := trivial
    exact operatorStep_error arith digit rfl rfl earlier failed
  | number pending literal =>
    obtain ⟨waiting, _, inside⟩ := bind_eq_ok.1 inside
    cases inside
    simp only [Reading.step] at failed
    split at failed
    next => cases failed
    next ends =>
      cases supplied : waiting.supplyNumber arith literal with
      | ok values =>
        obtain ⟨terms, read⟩ := exists_supplyNumber arith pending supplied
        obtain ⟨v, valued, _⟩ := bind_eq_ok.1 supplied
        have digit : Reading.HasDigit ⟨enclosing, .number pending literal⟩ :=
          any_isDigit_of_literalValue arith valued
        have stepped : Tree.step ⟨enclosing, .number pending literal⟩ c =
            Tree.operatorStep enclosing terms c := by simp [Tree.step, ends, read]
        have ended : Tree.finish ⟨enclosing, .number pending literal⟩ =
            Tree.close enclosing terms := by simp [Tree.finish, read]
        rw [supplied] at failed
        exact operatorStep_error arith digit stepped ended earlier failed
      | error d =>
        rw [supplied] at failed
        obtain rfl : d = err := Except.error.inj failed
        rcases supplyNumber_error arith supplied with rfl | ⟨bare, rfl⟩
        · exact .divisionByZero
        · exact .malformedNumber rfl bare ends

theorem ne_blank_of_stuck {r : Reading Tree} {c : Char} (digit : r.HasDigit)
    (stuck : Tree.step r c = none) : c ≠ ' ' := by
  -- A blank ends a number, and is passed over everywhere else.
  rintro rfl
  obtain ⟨enclosing, phase⟩ := r
  cases phase with
  | operand | operator => cases stuck
  | number pending literal =>
    change literal.any Char.isDigit = true at digit
    have ends : continues literal ' ' = false := rfl
    simp [Tree.step, ends, Tree.supplyNumber, digit, Tree.operatorStep] at stuck

/-! ## The errors at the end -/

theorem close_error {r : Reading Tree} {enclosing : List (Pending Tree)} {terms : Terms Tree}
    (digit : r.HasDigit) (ended : Tree.finish r = Tree.close enclosing terms)
    {before : List (Pending α)} (same : before.length = enclosing.length) {values : Terms α}
    {err : ExpressionError} (failed : Reading.close arith before values = .error err) :
    FinishError r err := by
  cases before with
  | nil => cases failed
  | cons =>
    cases enclosing with
    | nil => cases same
    | cons =>
      cases failed
      exact .unexpectedEnd digit ended

theorem Reading.finish_error {r : Reading Tree} {values : Reading α} {err : ExpressionError}
    (evaluated : r.evaluate arith = .ok values) (failed : values.finish arith = .error err) :
    FinishError r err := by
  obtain ⟨enclosing, phase⟩ := r
  obtain ⟨before, current, earlier, inside, rfl⟩ := Reading.evaluate_eq_ok arith evaluated
  have same := length_evaluateEnclosing arith earlier
  cases phase with
  | operand pending =>
    obtain ⟨waiting, _, inside⟩ := bind_eq_ok.1 inside
    cases inside
    cases failed
    exact .unexpectedEnd trivial rfl
  | operator terms =>
    obtain ⟨values, _, inside⟩ := bind_eq_ok.1 inside
    cases inside
    have digit : Reading.HasDigit ⟨enclosing, .operator terms⟩ := trivial
    exact close_error arith digit rfl same failed
  | number pending literal =>
    obtain ⟨waiting, _, inside⟩ := bind_eq_ok.1 inside
    cases inside
    simp only [Reading.finish] at failed
    cases supplied : waiting.supplyNumber arith literal with
    | ok values =>
      obtain ⟨terms, read⟩ := exists_supplyNumber arith pending supplied
      obtain ⟨v, valued, _⟩ := bind_eq_ok.1 supplied
      have digit : Reading.HasDigit ⟨enclosing, .number pending literal⟩ :=
        any_isDigit_of_literalValue arith valued
      have ended : Tree.finish ⟨enclosing, .number pending literal⟩ =
          Tree.close enclosing terms := by simp [Tree.finish, read]
      rw [supplied] at failed
      exact close_error arith digit ended same failed
    | error d =>
      rw [supplied] at failed
      obtain rfl : d = err := Except.error.inj failed
      rcases supplyNumber_error arith supplied with rfl | ⟨bare, rfl⟩
      · exact .divisionByZero
      · exact .malformedNumber rfl bare

/-! ## Where the reader gives up -/

/-- After the text the reader stands with the values of the trees that it has read, and no group in
them is too deep. -/
structure Stands (t : Text) (r : Reading Tree) (values : Reading α) : Prop where
  led : advance .start t = some r
  shallow : r.depth ≤ maxDepth
  evaluated : r.evaluate arith = .ok values

variable {arith}

theorem stands_start : Stands arith [] .start .start :=
  ⟨rfl, Nat.zero_le _, evaluate_start arith⟩

theorem Stands.step {t : Text} {r : Reading Tree} {values next : Reading α} {c : Char}
    {offset : Nat} (stands : Stands arith t r values)
    (stepped : values.step arith offset c = .ok next) :
    ∃ after, Stands arith (t ++ [c]) after next := by
  obtain ⟨after, moved⟩ := Reading.exists_step arith stands.evaluated stepped
  -- A parenthesis too many would have been an error here.
  have room : after.enclosing.length ≤ maxDepth := by
    by_contra deeper
    have refused := Reading.step_overflow arith moved stands.evaluated
      (Nat.le_trans r.length_le_depth stands.shallow) (Nat.lt_of_not_le deeper) offset
    exact absurd (refused.symm.trans stepped) (by simp)
  refine ⟨after, ?_, ?_, ?_⟩
  · rw [Tree.advance_append_singleton, stands.led, Option.bind_some, moved]
  · rw [Reading.depth_step moved]
    exact Nat.max_le.2 ⟨stands.shallow, room⟩
  · rw [Reading.evaluate_step arith moved room offset, stands.evaluated]
    exact stepped

inductive GivesUp (arith : Arithmetic α) (t : Text) (err : ExpressionError) : Prop where
  | at {p s : Text} {c : Char} {r : Reading Tree} {values : Reading α} (split : t = p ++ c :: s)
      (stands : Stands arith p r values) (failed : StepError r c p.length err)
  | end {r : Reading Tree} {values : Reading α} (stands : Stands arith t r values)
      (failed : FinishError r err)

theorem Stands.givesUp {p t : Text} {r : Reading Tree} {values : Reading α} {err : ExpressionError}
    (stands : Stands arith p r values) (failed : values.run arith p.length t = .error err) :
    GivesUp arith (p ++ t) err := by
  induction t generalizing p r values with
  | nil =>
    rw [List.append_nil]
    exact .end stands (Reading.finish_error arith stands.evaluated failed)
  | cons c t ih =>
    rw [Reading.run] at failed
    cases stepped : values.step arith p.length c with
    | error d =>
      rw [stepped] at failed
      obtain rfl : d = err := Except.error.inj failed
      exact .at rfl stands (Reading.step_error arith stands.evaluated stepped)
    | ok next =>
      rw [stepped] at failed
      obtain ⟨after, later⟩ := stands.step stepped
      have length : (p ++ [c]).length = p.length + 1 := List.length_append
      have rest := ih later (by rw [length]; exact failed)
      rwa [List.append_assoc] at rest

theorem givesUp_of_value {t : Text} {err : ExpressionError} (failed : value arith t = .error err) :
    GivesUp arith t err :=
  stands_start.givesUp failed

/-! ## Sentences -/

theorem isSentence_iff_finish {t : Text} {r : Reading Tree} (led : advance .start t = some r) :
    IsSentence t ↔ ∃ e, Tree.finish r = some e := by
  simp only [IsSentence, derives_iff_ofText?, Tree.ofText?, readFrom, led, Option.bind_some]

theorem not_isSentence_of_stuck {t : Text} {r : Reading Tree} {c : Char}
    (led : advance .start t = some r) (stuck : Tree.step r c = none) (s : Text) :
    ¬IsSentence (t ++ c :: s) := by
  rintro ⟨e, derives⟩
  have read := ofText?_of_derives derives
  rw [Tree.ofText?, Tree.readFrom_append, led, Option.bind_some, Tree.readFrom_cons, stuck] at read
  cases read

theorem not_isSentence_of_finish {t : Text} {r : Reading Tree} (led : advance .start t = some r)
    (unfinished : Tree.finish r = none) : ¬IsSentence t := by
  rw [isSentence_iff_finish led, unfinished]
  rintro ⟨e, ended⟩
  cases ended

variable (arith)

theorem error_of_isSentence {t : Text} {err : ExpressionError} (sentence : IsSentence t)
    (failed : value arith t = .error err) :
    err = .divisionByZero ∨ err = .nestingTooDeep maxDepth := by
  cases givesUp_of_value failed with
  | «at» split stands refused =>
    subst split
    cases refused with
    | divisionByZero => exact .inl rfl
    | nestingTooDeep => exact .inr rfl
    | malformedNumber reading bare ends =>
      exact absurd sentence (not_isSentence_of_stuck stands.led (step_of_bare reading bare ends) _)
    | unexpectedChar _ stuck | trailingInput _ stuck =>
      exact absurd sentence (not_isSentence_of_stuck stands.led stuck _)
  | «end» stands refused =>
    cases refused with
    | divisionByZero => exact .inl rfl
    | malformedNumber reading bare =>
      exact absurd sentence (not_isSentence_of_finish stands.led (finish_of_bare reading bare))
    | unexpectedEnd _ unfinished =>
      exact absurd sentence (not_isSentence_of_finish stands.led unfinished)

end DeskCalculator.Expression
