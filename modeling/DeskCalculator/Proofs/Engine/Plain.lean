import DeskCalculator.Proofs.Engine.Typing
import DeskCalculator.Proofs.Evaluator.Plain
/-!
What runs show. Under an accepted configuration every expression is plain, also where numbers were
negated: it has the characters of the calculator only, and numbers that can be read. The readout is
such an expression, a zero, or the marker.
-/
namespace DeskCalculator

open Expression

namespace Engine

/-! ## Runs stay within plain texts -/

theorem isPlain_append_digit {t : Text} (plain : IsPlain t) {c : Char} (digit : c.isDigit = true) :
    IsPlain (t ++ [c]) := by
  obtain ⟨written, point, _⟩ := typingRule_digit t digit
  exact isPlain_append_singleton.2 ⟨plain, written, point⟩

theorem isPlain_append_point {t : Text} (plain : IsPlain t) (point : pointRule t '.') :
    IsPlain (t ++ ['.']) :=
  isPlain_append_singleton.2 ⟨plain, rfl, point⟩

theorem isPlain_leadingPoint {t : Text} (plain : IsPlain t) (run : currentRun t = []) :
    IsPlain (t ++ ['0', '.']) := by
  have zero : IsPlain (t ++ ['0']) := isPlain_append_digit plain rfl
  have both : t ++ ['0', '.'] = (t ++ ['0']) ++ ['.'] := by simp
  rw [both]
  exact isPlain_append_point zero (pointRule_leadingZero run)

theorem isPlain_append_operator {t : Text} (plain : IsPlain t) (op : Operator) :
    IsPlain (t ++ [op.symbol]) :=
  plain.append_delimiter (isDelimiter_of_isOperator (isOperator_symbol op))

theorem isPlain_apply {e : Engine} {op : Operation} (places : 0 ≤ e.evaluator.roundingExponent)
    (plain : IsPlain e.expression) : IsPlain (e.apply op).expression := by
  have change := e.change_apply op
  generalize e.apply op = e' at change
  cases change with
  | none => exact plain
  | digit digit => exact isPlain_append_digit (holds_resumed isPlain_nil plain) digit
  | point run absent =>
    have resumed := holds_resumed isPlain_nil plain
    exact isPlain_append_point resumed ((pointRule_iff resumed.written).2 ⟨run, absent⟩)
  | leadingPoint run => exact isPlain_leadingPoint (holds_resumed isPlain_nil plain) run
  | sign => exact isPlain_append_operator plain .subtract
  | replace split =>
    rw [split] at plain
    exact isPlain_append_operator plain.before _
  | append => exact isPlain_append_operator plain _
  | negate found => exact plain.negated (LastNumber.isLastOf_of_find? found)
  | delete split =>
    rw [split] at plain
    exact plain.before
  | clear => exact isPlain_nil
  | openGroup => exact plain.append_delimiter rfl
  | closeGroup => exact plain.append_delimiter rfl
  | percent found _ finite =>
    obtain ⟨found, atEnd⟩ := LastNumber.find?_of_atEnd? found
    exact plain.withDigits (LastNumber.isLastOf_of_find? found) atEnd
      (Decimal.isPositional_hundredth finite)
  | root value nonnegative =>
    exact isPlain_display (Binary64.isFinite_sqrt (isFinite_of_value? places value) nonnegative)
  | square _ finite => exact isPlain_display finite
  | result _ value => exact isPlain_display (Evaluator.isFinite_of_valueOf places value)
  | fail => exact isPlain_nil

theorem evaluator_run (e : Engine) (operations : List Operation) :
    (e.run operations).evaluator = e.evaluator := by
  apply @run_keeps (fun e' => e'.evaluator = e.evaluator) e rfl
  intro e' op _ same
  rw [evaluator_apply, same]

theorem isPlain_run {config : Config} (accepted : config.validate = .ok config)
    (operations : List Operation) :
    IsPlain ((initial config.evaluator).run operations).expression := by
  have kept : 0 ≤ ((initial config.evaluator).run operations).evaluator.roundingExponent ∧
      IsPlain ((initial config.evaluator).run operations).expression := by
    apply @run_keeps (fun e => 0 ≤ e.evaluator.roundingExponent ∧ IsPlain e.expression)
      (initial config.evaluator)
    · exact ⟨config.roundingExponent_nonneg accepted, isPlain_nil⟩
    · rintro e op - ⟨places, plain⟩
      rw [evaluator_apply]
      exact ⟨places, isPlain_apply places plain⟩
  exact kept.2

/-! ## The readout -/

def IsShown (e : Engine) : Prop :=
  (e.expression = [] ∧ (e.readout = ['0'] ∨ e.readout = e.evaluator.errorMarker)) ∨
    e.expression ≠ [] ∧ e.readout = e.expression

theorem isShown_shown (e : Engine) : e.shown.IsShown := by
  by_cases empty : e.expression = []
  · exact .inl ⟨empty, .inl (if_pos empty)⟩
  · exact .inr ⟨empty, if_neg empty⟩

theorem IsShown.apply {e : Engine} (current : e.IsShown) (op : Operation) :
    (e.apply op).IsShown := by
  have change := e.change_apply op
  generalize e.apply op = e' at change
  cases change with
  | none => exact current
  | fail => exact .inl ⟨rfl, .inr rfl⟩
  | @result v =>
    exact isShown_shown { e with
      expression := v.display, openGroups := 0, operandDue := false, latest := .equals }
  | _ => exact isShown_shown _

theorem isShown_run (evaluator : Evaluator) (operations : List Operation) :
    ((initial evaluator).run operations).IsShown :=
  run_keeps (.inl ⟨rfl, .inl rfl⟩) operations fun _ op _ current => current.apply op

theorem isWritten_iff (c : Char) :
    isWritten c = true ↔ c.isDigit = true ∨ c ∈ ['.', '+', '-', '*', '/', '(', ')'] := by
  rw [isWritten_eq, Bool.or_eq_true, isNumeric_iff]
  simp [isDelimiter, isOperator_iff, or_assoc]

/-- Under an accepted configuration an expression has digits, points, operators and parentheses
only, and it is what the readout shows. Without an expression that is a zero, or the marker. -/
theorem readout_run {config : Config} (accepted : config.validate = .ok config)
    (operations : List Operation) :
    let e := (initial config.evaluator).run operations
    (∀ c ∈ e.expression, c.isDigit = true ∨ c ∈ ['.', '+', '-', '*', '/', '(', ')']) ∧
      (e.expression = [] ∧ (e.readout = ['0'] ∨ e.readout = config.errorMarker) ∨
        e.expression ≠ [] ∧ e.readout = e.expression) := by
  intro e
  have plain : IsPlain e.expression := isPlain_run accepted operations
  have marker : e.evaluator.errorMarker = config.errorMarker :=
    congrArg Evaluator.errorMarker (evaluator_run (initial config.evaluator) operations)
  have current : e.IsShown := isShown_run config.evaluator operations
  rw [← marker]
  exact ⟨fun c member => (isWritten_iff c).1 (plain.written c member), current⟩

theorem readout_run_root :
    let typed : List Operation := [.digit '2', .squareRoot, .operator .divide, .digit '0', .equals]
    let e := (initial ({} : Config).evaluator).run typed
    ({} : Config).validate = .ok {} ∧
      (∀ c ∈ e.expression, c.isDigit = true ∨ c ∈ ['.', '+', '-', '*', '/', '(', ')']) ∧
      (e.expression = [] ∧ (e.readout = ['0'] ∨ e.readout = ({} : Config).errorMarker) ∨
        e.expression ≠ [] ∧ e.readout = e.expression) := by
  have accepted : ({} : Config).validate = .ok {} := by decide
  exact ⟨accepted, readout_run accepted _⟩

/-! ## Numbers that can be read -/

theorem isPlain_closed {e : Engine} (plain : IsPlain e.expression) : IsPlain e.closed := by
  unfold closed
  induction e.openGroups with
  | zero => rwa [List.replicate_zero, List.append_nil]
  | succ n ih =>
    rw [List.replicate_succ', ← List.append_assoc]
    exact ih.append_delimiter rfl

/-- Under an accepted configuration every run of digits and points in an expression starts with a
digit and has one point at most. So where the expression ends with a digit, the last number is the
run at its end, and neither the expression nor what is evaluated of it has a number that cannot be
read or a foreign character. -/
theorem hasPlainRuns_run {config : Config} (accepted : config.validate = .ok config)
    (operations : List Operation) :
    let e := (initial config.evaluator).run operations
    HasPlainRuns e.expression ∧
      (e.expression.endsWith Char.isDigit = true →
        (LastNumber.atEnd? e.expression).map (·.digits) = some (currentRun e.expression)) ∧
      ∀ t, t = e.expression ∨ t = e.closed →
        (∀ c, e.evaluator.valueOf t ≠ .error (.foreignChar c)) ∧
          ∀ literal, e.evaluator.valueOf t ≠ .error (.malformedNumber literal) := by
  intro e
  have plain : IsPlain e.expression := isPlain_run accepted operations
  refine ⟨plain.runs, plain.atEnd?_digits, ?_⟩
  intro t evaluated
  have text : IsPlain t := by
    rcases evaluated with rfl | rfl
    · exact plain
    · exact isPlain_closed plain
  constructor
  · intro c failed
    have other := Evaluator.isLexical_valueOf text failed
    cases other
  · intro literal failed
    have other := Evaluator.isLexical_valueOf text failed
    cases other

theorem hasPlainRuns_run_negated :
    let typed : List Operation :=
      [.digit '1', .digit '.', .digit '5', .operator .multiply, .digit '.', .digit '2', .digit '5',
        .negate]
    let e := (initial ({} : Config).evaluator).run typed
    ({} : Config).validate = .ok {} ∧ HasPlainRuns e.expression ∧
      (LastNumber.atEnd? e.expression).map (·.digits) = some (currentRun e.expression) ∧
      ∀ t, t = e.expression ∨ t = e.closed →
        (∀ c, e.evaluator.valueOf t ≠ .error (.foreignChar c)) ∧
          ∀ literal, e.evaluator.valueOf t ≠ .error (.malformedNumber literal) := by
  intro typed e
  have accepted : ({} : Config).validate = .ok {} := by decide
  obtain ⟨runs, last, read⟩ := hasPlainRuns_run accepted typed
  have ends : e.expression.endsWith Char.isDigit = true := by decide
  exact ⟨accepted, runs, last ends, read⟩

end Engine

end DeskCalculator
