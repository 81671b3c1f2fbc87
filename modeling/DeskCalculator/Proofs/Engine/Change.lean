import DeskCalculator.Engine
import DeskCalculator.Proofs.Expression.Typable
/-!
What one operation can do to the engine: one case for each way it can go, with what is known there
and the engine that comes of it. Everything about runs goes through these cases.
-/
namespace DeskCalculator

namespace Engine

open Expression (IsGroupStart currentRun)

def resumed (e : Engine) : Engine := if e.latest = .equals then e.emptied else e

def grown (e : Engine) (t : Text) : Engine :=
  shown { e with expression := e.expression ++ t, operandDue := false, latest := .digit }

def operated (e : Engine) (t : Text) : Engine :=
  shown { e with expression := t, operandDue := true, latest := .operator }

def Fails (e : Engine) : Operation → Prop
  | .squareRoot => ∃ v, e.value? = some v ∧ v.isBelowZero = true
  | .square => ∃ v, e.value? = some v ∧ (v.mul v).isFinite = false
  | .equals => e.expression ≠ [] ∧ ∃ err, e.evaluator.valueOf e.closed = .error err
  | _ => False

/-- An operation changes the engine in one of these ways, or not at all. -/
inductive Change (e : Engine) : Operation → Engine → Prop where
  | none {op : Operation} : Change e op e
  | digit {c : Char} (digit : c.isDigit = true) : Change e (.digit c) (e.resumed.grown [c])
  | point (run : currentRun e.resumed.expression ≠ [])
      (absent : '.' ∉ currentRun e.resumed.expression) :
      Change e (.digit '.') (e.resumed.grown ['.'])
  | leadingPoint (run : currentRun e.resumed.expression = []) :
      Change e (.digit '.') (e.resumed.grown ['0', '.'])
  | sign (start : IsGroupStart e.expression) :
      Change e (.operator .subtract) (e.operated (e.expression ++ ['-']))
  | replace {op : Operator} {t : Text} {c : Char} (split : e.expression = t ++ [c])
      (operator : isOperator c = true) (due : e.operandDue = true)
      (place : IsGroupStart t → op = .subtract) :
      Change e (.operator op) (e.operated (t ++ [op.symbol]))
  | append {op : Operator} (inside : ¬IsGroupStart e.expression)
      (apart : ¬(e.operandDue = true ∧ e.expression.endsWith isOperator = true)) :
      Change e (.operator op) (e.operated (e.expression ++ [op.symbol]))
  | negate {n : LastNumber} (found : LastNumber.find? e.expression = some n) :
      Change e .negate (shown { e with expression := n.negated })
  | delete {t : Text} {c : Char} (split : e.expression = t ++ [c]) :
      Change e .deleteLast
        (shown { e with
          expression := t, openGroups := countOpenGroups t, operandDue := isOperandDue t })
  | clear : Change e .clear e.clear
  | openGroup {op : Operation} (opens : op = .openGroup ∨ op = .parenthesis) :
      Change e op e.openGroup
  | closeGroup {op : Operation} (closes : op = .closeGroup ∨ op = .parenthesis) :
      Change e op e.closeGroup
  | percent {n : LastNumber} {d : Decimal} (found : LastNumber.atEnd? e.expression = some n)
      (read : Decimal.ofText? n.digits = some d) (finite : d.toBinary64.isFinite = true) :
      Change e .percent
        (shown { e with expression := n.withDigits (d.toBinary64.div (.ofNat 100)).display })
  | root {v : Binary64} (value : e.value? = some v) (nonnegative : v.isBelowZero = false) :
      Change e .squareRoot (e.replaceWith v.sqrt)
  | square {v : Binary64} (value : e.value? = some v) (finite : (v.mul v).isFinite = true) :
      Change e .square (e.replaceWith (v.mul v))
  | result {v : Binary64} (nonempty : e.expression ≠ [])
      (value : e.evaluator.valueOf e.closed = .ok v) :
      Change e .equals { e.replaceWith v with latest := .equals }
  | fail {op : Operation} (fails : e.Fails op) : Change e op e.failed

/-! ## The cases of each operation -/

theorem isGroupStart_iff_eq_true (t : Text) :
    IsGroupStart t ↔ (t.isEmpty || Text.endsWith (· == '(') t) = true := by
  rw [IsGroupStart, Bool.or_eq_true, List.isEmpty_iff]

theorem holds_resumed {P : Text → Prop} {e : Engine} (anew : P []) (here : P e.expression) :
    P e.resumed.expression := by
  unfold resumed
  split
  · exact anew
  · exact here

theorem latest_of_currentRun {e : Engine} (run : currentRun e.resumed.expression ≠ []) :
    e.latest ≠ .equals := by
  intro finished
  rw [resumed, if_pos finished] at run
  exact run rfl

theorem typeDigit_eq (e : Engine) {c : Char} (typed : (c.isDigit || c == '.') = true) :
    e.typeDigit c =
      if c = '.' ∧ (currentRun e.resumed.expression).contains '.' then e.resumed
      else e.resumed.grown
        ((if c = '.' ∧ currentRun e.resumed.expression = [] then ['0'] else []) ++ [c]) := by
  have resume : (if e.latest = .equals then e.emptied else e) = e.resumed := rfl
  unfold typeDigit grown
  rw [if_pos typed, resume, ← List.append_assoc]

theorem typeDigit_of_isDigit (e : Engine) {c : Char} (digit : c.isDigit = true) :
    e.typeDigit c = e.resumed.grown [c] := by
  have other : c ≠ '.' := by
    rintro rfl
    exact absurd digit (by decide)
  rw [typeDigit_eq e (by rw [digit, Bool.true_or]), if_neg (fun both => other both.1),
    if_neg (fun both => other both.1), List.nil_append]

theorem typeDigit_point (e : Engine) (run : currentRun e.resumed.expression ≠ [])
    (absent : '.' ∉ currentRun e.resumed.expression) :
    e.typeDigit '.' = e.resumed.grown ['.'] := by
  have second : ¬(currentRun e.resumed.expression).contains '.' = true := by simpa using absent
  rw [typeDigit_eq e rfl, if_neg (fun both => second both.2), if_neg (fun both => run both.2),
    List.nil_append]

theorem typeDigit_leadingPoint (e : Engine) (run : currentRun e.resumed.expression = []) :
    e.typeDigit '.' = e.resumed.grown ['0', '.'] := by
  rw [typeDigit_eq e rfl, run, if_neg (by simp), if_pos ⟨rfl, rfl⟩]
  rfl

theorem change_typeDigit (e : Engine) (c : Char) : Change e (.digit c) (e.typeDigit c) := by
  by_cases digit : c.isDigit = true
  · rw [typeDigit_of_isDigit e digit]
    exact .digit digit
  · by_cases point : c = '.'
    · subst point
      by_cases run : currentRun e.resumed.expression = []
      · rw [typeDigit_leadingPoint e run]
        exact .leadingPoint run
      · by_cases second : '.' ∈ currentRun e.resumed.expression
        · have same : e.resumed = e := if_neg (latest_of_currentRun run)
          have contained : (currentRun e.resumed.expression).contains '.' = true := by
            simpa using second
          rw [typeDigit_eq e rfl, if_pos ⟨rfl, contained⟩, same]
          exact .none
        · rw [typeDigit_point e run second]
          exact .point run second
    · have untyped : ¬(c.isDigit || c == '.') = true := by simpa [point] using digit
      rw [typeDigit, if_neg untyped]
      exact .none

theorem typeOperator_start (e : Engine) (start : IsGroupStart e.expression) :
    e.typeOperator .subtract = e.operated (e.expression ++ ['-']) := by
  unfold typeOperator withOperator?
  rw [if_pos ((isGroupStart_iff_eq_true _).1 start), if_pos rfl]
  rfl

theorem typeOperator_append (e : Engine) {op : Operator} (inside : ¬IsGroupStart e.expression)
    (apart : ¬(e.operandDue = true ∧ Text.endsWith isOperator e.expression = true)) :
    e.typeOperator op = e.operated (e.expression ++ [op.symbol]) := by
  unfold typeOperator withOperator?
  rw [if_neg (fun start => inside ((isGroupStart_iff_eq_true _).2 start)),
    if_neg (by simpa using apart)]
  rfl

theorem typeOperator_replace (e : Engine) {op : Operator} {t : Text} {c : Char}
    (split : e.expression = t ++ [c]) (operator : isOperator c = true)
    (due : e.operandDue = true) (allowed : ¬(IsGroupStart t ∧ op ≠ .subtract)) :
    e.typeOperator op = e.operated (t ++ [op.symbol]) := by
  have inside : ¬IsGroupStart e.expression := by
    rw [isGroupStart_iff_eq_true, split, Text.endsWith_append_singleton]
    have other : c ≠ '(' := by
      rintro rfl
      exact absurd operator (by decide)
    simp [other]
  have ending : Text.endsWith isOperator e.expression = true := by
    rw [split, Text.endsWith_append_singleton, operator]
  have shorter : e.expression.dropLast = t := by rw [split, List.dropLast_concat]
  unfold typeOperator withOperator?
  rw [if_neg (fun start => inside ((isGroupStart_iff_eq_true _).2 start)), due, ending,
    Bool.true_and, if_pos rfl, endsWithSign, shorter,
    if_neg (fun both => allowed ⟨(isGroupStart_iff_eq_true t).2 both.1, both.2⟩)]
  rfl

theorem change_typeOperator (e : Engine) (op : Operator) :
    Change e (.operator op) (e.typeOperator op) := by
  by_cases start : IsGroupStart e.expression
  · by_cases minus : op = .subtract
    · subst minus
      rw [typeOperator_start e start]
      exact .sign start
    · rw [typeOperator, withOperator?, if_pos ((isGroupStart_iff_eq_true _).1 start), if_neg minus]
      exact .none
  · by_cases replaces : e.operandDue = true ∧ Text.endsWith isOperator e.expression = true
    · obtain ⟨due, ending⟩ := replaces
      obtain ⟨t, c, split, operator⟩ := Text.exists_of_endsWith ending
      by_cases blocked : IsGroupStart t ∧ op ≠ .subtract
      · have shorter : e.expression.dropLast = t := by rw [split, List.dropLast_concat]
        unfold typeOperator withOperator?
        rw [if_neg (fun isStart => start ((isGroupStart_iff_eq_true _).2 isStart)), due, ending,
          Bool.true_and, if_pos rfl, endsWithSign, shorter,
          if_pos ⟨(isGroupStart_iff_eq_true t).1 blocked.1, blocked.2⟩]
        exact .none
      · rw [typeOperator_replace e split operator due blocked]
        refine .replace split operator due ?_
        intro place
        exact Decidable.not_not.1 (fun other => blocked ⟨place, other⟩)
    · rw [typeOperator_append e start replaces]
      exact .append start replaces

theorem change_negate (e : Engine) : Change e .negate e.negate := by
  unfold negate
  cases found : LastNumber.find? e.expression with
  | none => exact .none
  | some n => exact .negate found

theorem change_deleteLast (e : Engine) : Change e .deleteLast e.deleteLast := by
  unfold deleteLast
  by_cases empty : e.expression = []
  · rw [if_pos empty]
    exact .none
  · rw [if_neg empty]
    exact .delete (List.dropLast_concat_getLast empty).symm

theorem change_parenthesis (e : Engine) : Change e .parenthesis e.parenthesis := by
  unfold parenthesis
  split
  · exact .openGroup (.inr rfl)
  · exact .closeGroup (.inr rfl)

theorem change_percent (e : Engine) : Change e .percent e.percent := by
  unfold percent
  cases found : LastNumber.atEnd? e.expression with
  | none => exact .none
  | some n =>
    dsimp only
    cases read : Decimal.ofText? n.digits with
    | none => exact .none
    | some d =>
      dsimp only
      by_cases finite : d.toBinary64.isFinite = true
      · rw [if_pos finite]
        exact .percent found read finite
      · rw [if_neg finite]
        exact .none

theorem change_squareRoot (e : Engine) : Change e .squareRoot e.squareRoot := by
  unfold squareRoot
  cases value : e.value? with
  | none => exact .none
  | some v =>
    dsimp only
    by_cases below : v.isBelowZero = true
    · rw [if_pos below]
      exact .fail ⟨v, value, below⟩
    · rw [if_neg below]
      exact .root value (Bool.eq_false_iff.2 below)

theorem change_square (e : Engine) : Change e .square e.square := by
  unfold square
  cases value : e.value? with
  | none => exact .none
  | some v =>
    dsimp only
    by_cases finite : (v.mul v).isFinite = true
    · rw [if_pos finite]
      exact .square value finite
    · rw [if_neg finite]
      exact .fail ⟨v, value, Bool.eq_false_iff.2 finite⟩

theorem change_equals (e : Engine) : Change e .equals e.equals := by
  unfold equals
  by_cases empty : e.expression = []
  · rw [if_pos empty]
    exact .none
  · rw [if_neg empty]
    unfold Evaluator.outcome
    cases value : e.evaluator.valueOf e.closed with
    | ok v => exact .result empty value
    | error err => exact .fail ⟨empty, err, value⟩

theorem change_apply (e : Engine) (op : Operation) : Change e op (e.apply op) := by
  cases op with
  | digit c => exact e.change_typeDigit c
  | operator op => exact e.change_typeOperator op
  | negate => exact e.change_negate
  | deleteLast => exact e.change_deleteLast
  | clear => exact .clear
  | parenthesis => exact e.change_parenthesis
  | openGroup => exact .openGroup (.inl rfl)
  | closeGroup => exact .closeGroup (.inl rfl)
  | percent => exact e.change_percent
  | squareRoot => exact e.change_squareRoot
  | square => exact e.change_square
  | equals => exact e.change_equals

theorem apply_of_fails {e : Engine} {op : Operation} (fails : e.Fails op) :
    e.apply op = e.failed := by
  cases op with
  | squareRoot =>
    obtain ⟨v, value, below⟩ := fails
    change e.squareRoot = _
    rw [squareRoot, value]
    exact if_pos below
  | square =>
    obtain ⟨v, value, infinite⟩ := fails
    change e.square = _
    rw [square, value]
    exact if_neg (by rw [infinite]; decide)
  | equals =>
    obtain ⟨nonempty, err, outcome⟩ := fails
    change e.equals = _
    rw [equals, if_neg nonempty, Evaluator.outcome, outcome]
  | _ => exact fails.elim

/-! ## Runs -/

theorem run_append (e : Engine) (earlier later : List Operation) :
    e.run (earlier ++ later) = (e.run earlier).run later := List.foldl_append

theorem run_append_singleton (e : Engine) (earlier : List Operation) (op : Operation) :
    e.run (earlier ++ [op]) = (e.run earlier).apply op := by
  rw [run_append]
  rfl

theorem run_keeps {P : Engine → Prop} {e : Engine} (start : P e) (operations : List Operation)
    (keeps : ∀ e op, op ∈ operations → P e → P (e.apply op)) : P (e.run operations) := by
  induction operations generalizing e with
  | nil => exact start
  | cons op rest ih =>
    apply ih (keeps e op List.mem_cons_self start)
    intro e' op' member
    exact keeps e' op' (List.mem_cons_of_mem op member)

theorem evaluator_apply (e : Engine) (op : Operation) : (e.apply op).evaluator = e.evaluator := by
  have change := e.change_apply op
  generalize e.apply op = e' at change
  have resume : e.resumed.evaluator = e.evaluator := by
    unfold resumed
    split <;> rfl
  cases change with
  | digit | point | leadingPoint => exact resume
  | _ => rfl

end Engine

end DeskCalculator
