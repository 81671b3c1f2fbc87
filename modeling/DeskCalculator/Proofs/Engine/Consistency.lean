import DeskCalculator.Proofs.Engine.Change
/-!
The engine keeps the number of open groups and whether an operand is due beside the expression. Both
always are what the expression says, although only deleting counts anew.
-/
namespace DeskCalculator

open Expression (IsLiteral isDelimiter)

namespace Engine

structure IsConsistent (e : Engine) : Prop where
  groups : e.openGroups = countOpenGroups e.expression
  due : e.operandDue = isOperandDue e.expression

/-! ## Counting groups -/

def IsGroupless (t : Text) : Prop := ∀ c ∈ t, c ≠ '(' ∧ c ≠ ')'

theorem IsGroupless.count {t : Text} (groupless : IsGroupless t) :
    t.count '(' = 0 ∧ t.count ')' = 0 :=
  ⟨List.count_eq_zero.2 fun member => (groupless _ member).1 rfl,
    List.count_eq_zero.2 fun member => (groupless _ member).2 rfl⟩

theorem foldl_groupStep {t : Text} (groupless : IsGroupless t) (opened : Nat) :
    t.foldl groupStep opened = opened := by
  induction t with
  | nil => rfl
  | cons c t ih =>
    obtain ⟨opening, closing⟩ := groupless c List.mem_cons_self
    rw [List.foldl_cons, groupStep, if_neg opening, if_neg closing]
    exact ih (fun d member => groupless d (List.mem_cons_of_mem c member))

theorem countOpenGroups_append (t : Text) {u : Text} (groupless : IsGroupless u) :
    countOpenGroups (t ++ u) = countOpenGroups t := by
  rw [countOpenGroups, List.foldl_append, foldl_groupStep groupless]
  rfl

theorem countOpenGroups_exchange (s t : Text) {u v : Text} (old : IsGroupless u)
    (new : IsGroupless v) : countOpenGroups (s ++ u ++ t) = countOpenGroups (s ++ v ++ t) := by
  have exchange : countOpenGroups (s ++ u) = countOpenGroups (s ++ v) := by
    rw [countOpenGroups_append s old, countOpenGroups_append s new]
  simp only [countOpenGroups, List.foldl_append] at exchange ⊢
  rw [exchange]

theorem isGroupless_of_not_isDelimiter {t : Text} (others : ∀ c ∈ t, isDelimiter c = false) :
    IsGroupless t := by
  intro c member
  have other := others c member
  constructor
  · rintro rfl
    exact absurd other (by decide)
  · rintro rfl
    exact absurd other (by decide)

theorem isGroupless_literal {t : Text} (literal : IsLiteral t) : IsGroupless t := by
  apply isGroupless_of_not_isDelimiter
  intro c member
  exact Expression.isDelimiter_eq_false ((Expression.isNumeric_iff c).1 (literal.numeric c member))

theorem isGroupless_singleton {c : Char} (operator : isOperator c = true) : IsGroupless [c] := by
  intro d member
  rw [List.mem_singleton.1 member]
  constructor
  · rintro rfl
    exact absurd operator (by decide)
  · rintro rfl
    exact absurd operator (by decide)

theorem isGroupless_append {s t : Text} (left : IsGroupless s) (right : IsGroupless t) :
    IsGroupless (s ++ t) := by
  intro c member
  rcases List.mem_append.1 member with first | second
  · exact left c first
  · exact right c second

theorem isGroupless_display (x : Binary64) : IsGroupless x.display := by
  obtain ⟨body, _, others, shown⟩ := x.display_eq
  have groupless := isGroupless_of_not_isDelimiter others
  rw [shown]
  split
  · exact isGroupless_append (isGroupless_singleton (c := '-') rfl) groupless
  · exact groupless

theorem isGroupless_nil : IsGroupless [] := fun _ member => absurd member List.not_mem_nil

theorem isGroupless_sign {n : LastNumber} {t : Text} (last : n.IsLastOf t) :
    IsGroupless n.sign.toList := by
  cases marked : n.sign with
  | none => exact isGroupless_nil
  | some mark =>
    apply isGroupless_singleton
    rcases (last.signed mark marked).1 with rfl | rfl <;> rfl

theorem isGroupless_flippedSign (n : LastNumber) : IsGroupless n.flippedSign := by
  unfold LastNumber.flippedSign
  split
  · exact isGroupless_nil
  · exact isGroupless_singleton rfl

/-! ## The end of the expression -/

theorem isOperandDue_append_singleton (t : Text) (c : Char) :
    isOperandDue (t ++ [c]) = (isOperator c || c == '(') :=
  Text.endsWith_append_singleton _ t c

theorem isOperandDue_append (s : Text) {t : Text} (nonempty : t ≠ []) :
    isOperandDue (s ++ t) = isOperandDue t := Text.endsWith_append _ s nonempty

theorem isOperandDue_of_not_isDelimiter {t : Text} (others : ∀ c ∈ t, isDelimiter c = false) :
    isOperandDue t = false := by
  apply Text.endsWith_eq_false
  intro c member
  have other := others c member
  rw [isDelimiter, Bool.or_eq_false_iff] at other
  exact other.1

theorem isOperandDue_display (s : Text) (x : Binary64) : isOperandDue (s ++ x.display) = false := by
  obtain ⟨body, nonempty, others, shown⟩ := x.display_eq
  have ending := isOperandDue_of_not_isDelimiter others
  rw [shown]
  split
  · rw [isOperandDue_append s (List.cons_ne_nil '-' body), ← List.singleton_append,
      isOperandDue_append ['-'] nonempty, ending]
  · rw [isOperandDue_append s nonempty, ending]

theorem IsConsistent.operandDue_of_endsWith {e : Engine} (consistent : e.IsConsistent)
    (ends : e.expression.endsWith isOperator = true) : e.operandDue = true := by
  obtain ⟨t, c, split, operator⟩ := Text.exists_of_endsWith ends
  rw [consistent.due, split, isOperandDue_append_singleton, operator, Bool.true_or]

theorem IsConsistent.apart {e : Engine} (consistent : e.IsConsistent)
    (apart : ¬(e.operandDue = true ∧ e.expression.endsWith isOperator = true)) :
    e.expression.endsWith isOperator = false := by
  rw [Bool.eq_false_iff]
  intro ends
  exact apart ⟨consistent.operandDue_of_endsWith ends, ends⟩

theorem IsConsistent.grow {e : Engine} (consistent : e.IsConsistent) {u : Text}
    (literal : IsLiteral u) (nonempty : u ≠ []) : (e.grown u).IsConsistent where
  groups := by
    change e.openGroups = countOpenGroups (e.expression ++ u)
    rw [consistent.groups, countOpenGroups_append _ (isGroupless_literal literal)]
  due := by
    change false = isOperandDue (e.expression ++ u)
    rw [isOperandDue_append _ nonempty, isOperandDue_of_not_isDelimiter]
    intro c member
    exact Expression.isDelimiter_eq_false
      ((Expression.isNumeric_iff c).1 (literal.numeric c member))

theorem IsConsistent.resume {e : Engine} (consistent : e.IsConsistent) :
    e.resumed.IsConsistent := by
  unfold resumed
  split
  · exact ⟨rfl, rfl⟩
  · exact consistent

theorem isConsistent_operated {e : Engine} {t : Text} {c : Char} (operator : isOperator c = true)
    (groups : e.openGroups = countOpenGroups t) : (e.operated (t ++ [c])).IsConsistent where
  groups := by
    change e.openGroups = countOpenGroups (t ++ [c])
    rw [groups, countOpenGroups_append _ (isGroupless_singleton operator)]
  due := by
    change true = isOperandDue (t ++ [c])
    rw [isOperandDue_append_singleton, operator, Bool.true_or]

theorem isConsistent_replaceWith (e : Engine) (x : Binary64) : (e.replaceWith x).IsConsistent where
  groups := by
    change 0 = countOpenGroups x.display
    rw [← List.nil_append x.display, countOpenGroups_append _ (isGroupless_display x)]
    rfl
  due := (isOperandDue_display [] x).symm

theorem IsConsistent.negate {e : Engine} (consistent : e.IsConsistent) {n : LastNumber}
    (found : LastNumber.find? e.expression = some n) :
    (shown { e with expression := n.negated }).IsConsistent := by
  have last := LastNumber.isLastOf_of_find? found
  have whole : (n.before ++ n.sign.toList) ++ (n.digits ++ n.after) = e.expression := by
    rw [← n.text_eq, last.text]
  obtain ⟨s, c, ends, _⟩ := Text.exists_of_endsWith last.ends
  have nonempty : n.digits ++ n.after ≠ [] := by simp [ends]
  constructor
  · change e.openGroups = countOpenGroups n.negated
    rw [consistent.groups, ← whole, n.negated_eq]
    exact countOpenGroups_exchange _ _ (isGroupless_sign last) (isGroupless_flippedSign n)
  · change e.operandDue = isOperandDue n.negated
    rw [consistent.due, ← whole, n.negated_eq, isOperandDue_append _ nonempty,
      isOperandDue_append _ nonempty]

theorem IsConsistent.percent {e : Engine} (consistent : e.IsConsistent) {n : LastNumber}
    (found : LastNumber.atEnd? e.expression = some n) (x : Binary64) :
    (shown { e with expression := n.withDigits x.display }).IsConsistent := by
  obtain ⟨found, atEnd⟩ := LastNumber.find?_of_atEnd? found
  have last := LastNumber.isLastOf_of_find? found
  have whole : (n.before ++ n.sign.toList) ++ n.digits = e.expression := by
    rw [← last.text, n.text_eq, atEnd, List.append_nil]
  have replaced : n.withDigits x.display = (n.before ++ n.sign.toList) ++ x.display := by
    rw [LastNumber.withDigits, atEnd, List.append_nil]
  obtain ⟨s, c, ends, digit⟩ := Text.exists_of_endsWith last.ends
  constructor
  · change e.openGroups = countOpenGroups (n.withDigits x.display)
    rw [consistent.groups, ← whole, replaced, countOpenGroups_append _ (isGroupless_display x),
      countOpenGroups_append _ (isGroupless_literal last.literal)]
  · change e.operandDue = isOperandDue (n.withDigits x.display)
    have other := Expression.isDelimiter_eq_false (.inl digit)
    rw [isDelimiter, Bool.or_eq_false_iff] at other
    rw [consistent.due, ← whole, replaced, isOperandDue_display, ends, ← List.append_assoc,
      isOperandDue_append_singleton, other.1]

/-! ## Operations and runs -/

theorem isConsistent_initial (evaluator : Evaluator) : (initial evaluator).IsConsistent :=
  ⟨rfl, rfl⟩

theorem IsConsistent.apply {e : Engine} (consistent : e.IsConsistent) (op : Operation) :
    (e.apply op).IsConsistent := by
  have change := e.change_apply op
  generalize e.apply op = e' at change
  cases change with
  | none => exact consistent
  | digit digit =>
    have numeric := Expression.isNumeric_of_isDigit digit
    exact consistent.resume.grow (Expression.isLiteral_singleton numeric) (by simp)
  | point => exact consistent.resume.grow (Expression.isLiteral_singleton rfl) (by simp)
  | leadingPoint =>
    exact consistent.resume.grow (Expression.isLiteral_point (a := ['0']) (by simp) (by simp))
      (by simp)
  | sign => exact isConsistent_operated rfl consistent.groups
  | replace split operator _ _ =>
    apply isConsistent_operated (isOperator_symbol _)
    rw [consistent.groups, split, countOpenGroups_append _ (isGroupless_singleton operator)]
  | append => exact isConsistent_operated (isOperator_symbol _) consistent.groups
  | negate found => exact consistent.negate found
  | delete => exact ⟨rfl, rfl⟩
  | clear => exact ⟨rfl, rfl⟩
  | openGroup =>
    constructor
    · change e.openGroups + 1 = countOpenGroups (e.expression ++ ['('])
      rw [consistent.groups, countOpenGroups, countOpenGroups, List.foldl_append]
      rfl
    · exact (isOperandDue_append_singleton e.expression '(').symm
  | closeGroup =>
    constructor
    · change e.openGroups - 1 = countOpenGroups (e.expression ++ [')'])
      rw [consistent.groups, countOpenGroups, countOpenGroups, List.foldl_append]
      rfl
    · exact (isOperandDue_append_singleton e.expression ')').symm
  | percent found => exact consistent.percent found _
  | root | square => exact isConsistent_replaceWith e _
  | result => exact ⟨(isConsistent_replaceWith e _).groups, (isConsistent_replaceWith e _).due⟩
  | fail => exact ⟨rfl, rfl⟩

theorem isConsistent_run (evaluator : Evaluator) (operations : List Operation) :
    ((initial evaluator).run operations).IsConsistent :=
  run_keeps (isConsistent_initial evaluator) operations
    (fun _ op _ consistent => consistent.apply op)

theorem isOperandDue_iff (t : Text) :
    isOperandDue t = true ↔
      ∃ s c, t = s ++ [c] ∧ (c = '+' ∨ c = '-' ∨ c = '*' ∨ c = '/' ∨ c = '(') := by
  have last (c : Char) : (isOperator c || c == '(') = true ↔
      c = '+' ∨ c = '-' ∨ c = '*' ∨ c = '/' ∨ c = '(' := by
    rw [Bool.or_eq_true, isOperator_iff, beq_iff_eq]
    simp only [or_assoc]
  constructor
  · intro due
    obtain ⟨s, c, split, holds⟩ := Text.exists_of_endsWith due
    exact ⟨s, c, split, (last c).1 holds⟩
  · rintro ⟨s, c, rfl, due⟩
    rw [isOperandDue_append_singleton, last]
    exact due

/-- After any run of operations, the open groups are those of the expression, where a closing
parenthesis without its partner counts for nothing, and an operand is due exactly when the
expression ends with an operator or an opening parenthesis. -/
theorem run_follows_expression (evaluator : Evaluator) (operations : List Operation) :
    let e := (initial evaluator).run operations
    e.openGroups = e.expression.foldl
      (fun opened c => if c = '(' then opened + 1 else if c = ')' then opened - 1 else opened) 0 ∧
    (e.operandDue = true ↔
      ∃ t c, e.expression = t ++ [c] ∧ (c = '+' ∨ c = '-' ∨ c = '*' ∨ c = '/' ∨ c = '(')) := by
  intro e
  have consistent := isConsistent_run evaluator operations
  constructor
  · exact consistent.groups
  · rw [consistent.due]
    exact isOperandDue_iff e.expression

end Engine

end DeskCalculator
