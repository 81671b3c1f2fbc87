import DeskCalculator.Proofs.Engine.Consistency
import DeskCalculator.Proofs.Evaluator.Range
import Mathlib.Data.List.Induction
/-!
Which expressions runs reach that negate no number. Under an accepted configuration they are the
texts that can be typed, and typing such a text a character at a time gives the text itself.
-/
namespace DeskCalculator

open Expression

def Operation.typing (c : Char) : Operation :=
  match Operator.ofChar? c with
  | some op => .operator op
  | none => if c = '(' then .openGroup else if c = ')' then .closeGroup else .digit c

namespace Engine

/-! ## Runs stay within the texts that can be typed -/

theorem isTypable_display {x : Binary64} (finite : x.isFinite = true) : IsTypable x.display := by
  obtain ⟨body, positional, shown⟩ := Binary64.display_of_isFinite finite
  rw [shown]
  split
  · have sign : IsTypable ['-'] := by
      rw [← List.nil_append ['-'], isTypable_append_singleton]
      exact ⟨isTypable_nil, typingRule_operator rfl rfl (fun _ => rfl)⟩
    exact sign.append_positional rfl positional
  · exact isTypable_nil.append_positional rfl positional

theorem isFinite_of_value? {e : Engine} (places : 0 ≤ e.evaluator.roundingExponent) {v : Binary64}
    (value : e.value? = some v) : v.isFinite = true := by
  unfold value? at value
  by_cases empty : e.expression = []
  · rw [if_pos empty] at value
    cases value
  · rw [if_neg empty] at value
    cases outcome : e.evaluator.valueOf e.expression with
    | error err =>
      rw [outcome] at value
      cases value
    | ok w =>
      rw [outcome] at value
      cases value
      exact Evaluator.isFinite_of_valueOf places outcome

theorem isTypable_leadingPoint {t : Text} (typable : IsTypable t) (run : currentRun t = []) :
    IsTypable (t ++ ['0', '.']) := by
  have zero : IsTypable (t ++ ['0']) :=
    isTypable_append_singleton.2 ⟨typable, typingRule_digit t rfl⟩
  have both : t ++ ['0', '.'] = (t ++ ['0']) ++ ['.'] := by simp
  rw [both, isTypable_append_singleton]
  exact ⟨zero, typingRule_point (pointRule_leadingZero run)⟩

theorem isTypable_percent {t : Text} {n : LastNumber} {d : Decimal} (typable : IsTypable t)
    (found : LastNumber.atEnd? t = some n) (finite : d.toBinary64.isFinite = true) :
    IsTypable (n.withDigits (d.toBinary64.div (.ofNat 100)).display) := by
  obtain ⟨found, atEnd⟩ := LastNumber.find?_of_atEnd? found
  have last := LastNumber.isLastOf_of_find? found
  have ends := endsWith_before_last last typable.runs
  have front : IsTypable (n.before ++ n.sign.toList) := by
    rw [← last.text, n.text_eq] at typable
    exact typable.before
  rw [LastNumber.withDigits, atEnd, List.append_nil]
  exact front.append_positional ends (Decimal.isPositional_hundredth finite)

theorem isTypable_apply {e : Engine} {op : Operation} (other : op ≠ .negate)
    (places : 0 ≤ e.evaluator.roundingExponent) (consistent : e.IsConsistent)
    (typable : IsTypable e.expression) : IsTypable (e.apply op).expression := by
  have change := e.change_apply op
  generalize e.apply op = e' at change
  cases change with
  | none => exact typable
  | digit digit =>
    have before := holds_resumed isTypable_nil typable
    exact isTypable_append_singleton.2 ⟨before, typingRule_digit _ digit⟩
  | point run absent =>
    have resumed := holds_resumed isTypable_nil typable
    have rule := (pointRule_iff resumed.written).2 ⟨run, absent⟩
    exact isTypable_append_singleton.2 ⟨resumed, typingRule_point rule⟩
  | leadingPoint run => exact isTypable_leadingPoint (holds_resumed isTypable_nil typable) run
  | sign start =>
    have rule := typingRule_operator rfl start.endsWith_isOperator (fun _ => rfl)
    exact isTypable_append_singleton.2 ⟨typable, rule⟩
  | replace split operator due place =>
    rw [split] at typable
    obtain ⟨before, _, _, operators⟩ := isTypable_append_singleton.1 typable
    refine isTypable_append_singleton.2 ⟨before, ?_⟩
    exact typingRule_operator (isOperator_symbol _) (operators operator).1
      (fun start => congrArg Operator.symbol (place start))
  | append inside apart =>
    refine isTypable_append_singleton.2 ⟨typable, ?_⟩
    exact typingRule_operator (isOperator_symbol _) (consistent.apart apart)
      (fun start => absurd start inside)
  | negate => exact absurd rfl other
  | delete split =>
    rw [split] at typable
    exact typable.before
  | clear => exact isTypable_nil
  | openGroup =>
    exact isTypable_append_singleton.2 ⟨typable, typingRule_group _ (.inl rfl)⟩
  | closeGroup =>
    exact isTypable_append_singleton.2 ⟨typable, typingRule_group _ (.inr rfl)⟩
  | percent found _ finite => exact isTypable_percent typable found finite
  | root value nonnegative =>
    exact isTypable_display (Binary64.isFinite_sqrt (isFinite_of_value? places value) nonnegative)
  | square _ finite => exact isTypable_display finite
  | result _ value => exact isTypable_display (Evaluator.isFinite_of_valueOf places value)
  | fail => exact isTypable_nil

theorem isTypable_run {evaluator : Evaluator} (places : 0 ≤ evaluator.roundingExponent)
    {operations : List Operation} (others : .negate ∉ operations) :
    IsTypable ((initial evaluator).run operations).expression := by
  have kept : 0 ≤ ((initial evaluator).run operations).evaluator.roundingExponent ∧
      ((initial evaluator).run operations).IsConsistent ∧
      IsTypable ((initial evaluator).run operations).expression := by
    apply @run_keeps (fun e => 0 ≤ e.evaluator.roundingExponent ∧ e.IsConsistent ∧
      IsTypable e.expression) (initial evaluator)
    · exact ⟨places, isConsistent_initial evaluator, isTypable_nil⟩
    · rintro e op member ⟨places, consistent, typable⟩
      have other : op ≠ .negate := by
        rintro rfl
        exact others member
      rw [evaluator_apply]
      exact ⟨places, consistent.apply op, isTypable_apply other places consistent typable⟩
  exact kept.2.2

/-! ## What can be typed is typed -/

theorem typing_of_not_isOperator {c : Char} (other : isOperator c = false) :
    Operation.typing c =
      if c = '(' then .openGroup else if c = ')' then .closeGroup else .digit c := by
  have absent : Operator.ofChar? c = none := by simpa [isOperator] using other
  rw [Operation.typing, absent]

theorem typeOperator_typable {e : Engine} {op : Operator}
    (rule : operatorRule e.expression op.symbol) :
    e.typeOperator op = e.operated (e.expression ++ [op.symbol]) := by
  obtain ⟨apart, leading⟩ := rule (isOperator_symbol op)
  by_cases start : IsGroupStart e.expression
  · have minus : op = .subtract := by
      cases op with
      | subtract => rfl
      | add | multiply | divide => exact absurd (leading start) (by decide)
    rw [minus]
    exact typeOperator_start e start
  · apply typeOperator_append e start
    rintro ⟨_, ends⟩
    rw [apart] at ends
    cases ends

theorem typeDigit_typable {e : Engine} (fresh : e.latest ≠ .equals)
    (typable : IsTypable e.expression) {c : Char} (numeric : isNumeric c = true)
    (point : pointRule e.expression c) : e.typeDigit c = e.grown [c] := by
  have resumed : e.resumed = e := if_neg fresh
  by_cases isPoint : c = '.'
  · subst isPoint
    obtain ⟨run, absent⟩ := (pointRule_iff typable.written).1 point
    rw [← resumed] at run absent
    rw [typeDigit_point e run absent, resumed]
  · rw [typeDigit_of_isDigit e (isDigit_of_isNumeric numeric isPoint), resumed]

/-- A character that may be typed is typed: nothing is dropped, added or replaced. -/
theorem apply_typing {e : Engine} (fresh : e.latest ≠ .equals) (typable : IsTypable e.expression)
    {c : Char} (rule : typingRule e.expression c) :
    (e.apply (.typing c)).expression = e.expression ++ [c] ∧
      (e.apply (.typing c)).latest ≠ .equals := by
  obtain ⟨written, point, operators⟩ := rule
  cases operator : isOperator c with
  | true =>
    obtain ⟨op, found⟩ := Option.isSome_iff_exists.1 operator
    have symbol := Operator.symbol_of_ofChar? found
    rw [← symbol] at operators
    rw [Operation.typing, found]
    change (e.typeOperator op).expression = _ ∧ (e.typeOperator op).latest ≠ _
    rw [typeOperator_typable operators, symbol]
    exact ⟨rfl, by simp [operated, shown]⟩
  | false =>
    rw [typing_of_not_isOperator operator]
    by_cases opening : c = '('
    · rw [if_pos opening, opening]
      exact ⟨rfl, fresh⟩
    · rw [if_neg opening]
      by_cases closing : c = ')'
      · rw [if_pos closing, closing]
        exact ⟨rfl, fresh⟩
      · rw [if_neg closing]
        have numeric : isNumeric c = true := by
          rw [isNumeric_eq_not_isDelimiter written]
          simp [isDelimiter, operator, opening, closing]
        change (e.typeDigit c).expression = _ ∧ (e.typeDigit c).latest ≠ _
        rw [typeDigit_typable fresh typable numeric point]
        exact ⟨rfl, by simp [grown, shown]⟩

theorem run_typing (evaluator : Evaluator) {t : Text} (typable : IsTypable t) :
    ((initial evaluator).run (t.map .typing)).expression = t ∧
      ((initial evaluator).run (t.map .typing)).latest ≠ .equals := by
  induction t using List.reverseRecOn with
  | nil =>
    refine ⟨rfl, ?_⟩
    change InputKind.none ≠ .equals
    decide
  | append_singleton t c ih =>
    obtain ⟨earlier, rule⟩ := isTypable_append_singleton.1 typable
    obtain ⟨same, fresh⟩ := ih earlier
    rw [List.map_append, List.map_singleton, run_append_singleton]
    generalize (initial evaluator).run (t.map .typing) = e at same fresh
    subst same
    exact apply_typing fresh earlier rule

theorem negate_not_mem_typing (t : Text) : .negate ∉ t.map Operation.typing := by
  intro member
  obtain ⟨c, _, typed⟩ := List.mem_map.1 member
  unfold Operation.typing at typed
  split at typed
  · cases typed
  · split at typed
    · cases typed
    · split at typed
      · cases typed
      · cases typed

/-- Under an accepted configuration, the expressions that can be reached without negating a number
are exactly the texts that can be typed, and each is reached by typing its characters. -/
theorem reachable_iff_isTypable {config : Config} (accepted : config.validate = .ok config) :
    (∀ t, (∃ operations, .negate ∉ operations ∧
        ((initial config.evaluator).run operations).expression = t) ↔ IsTypable t) ∧
      ∀ t, IsTypable t → ((initial config.evaluator).run (t.map .typing)).expression = t := by
  have places := config.roundingExponent_nonneg accepted
  constructor
  · intro t
    constructor
    · rintro ⟨operations, others, rfl⟩
      exact isTypable_run places others
    · intro typable
      exact ⟨t.map .typing, negate_not_mem_typing t, (run_typing config.evaluator typable).1⟩
  · intro t typable
    exact (run_typing config.evaluator typable).1

theorem reachable_iff_isTypable_default :
    ({} : Config).validate = .ok {} ∧ IsTypable "-5".toList ∧
      ((initial ({} : Config).evaluator).run ("-5".toList.map .typing)).expression =
        "-5".toList := by
  have accepted : ({} : Config).validate = .ok {} := by decide
  obtain ⟨reached, typed⟩ := reachable_iff_isTypable accepted
  have typable : IsTypable "-5".toList :=
    (reached "-5".toList).1 ⟨[.operator .subtract, .digit '5'], by decide, by decide⟩
  exact ⟨accepted, typable, typed _ typable⟩

end Engine

end DeskCalculator
