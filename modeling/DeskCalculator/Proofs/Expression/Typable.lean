import DeskCalculator.Proofs.Expression.Rule
/-!
The texts that can be typed without negating a number. What makes one is a rule on each of its
characters, so these texts are what typing a character at a time goes through.
-/
namespace DeskCalculator.Expression

def IsGroupStart (t : Text) : Prop := t = [] ∨ t.endsWith (· == '(') = true

theorem IsGroupStart.endsWith_isOperator {t : Text} (start : IsGroupStart t) :
    t.endsWith isOperator = false := by
  rcases start with rfl | parenthesis
  · rfl
  · obtain ⟨p, c, rfl, same⟩ := Text.exists_of_endsWith parenthesis
    rw [Text.endsWith_append_singleton, beq_iff_eq.1 same]
    decide

structure IsTypable (t : Text) : Prop where
  written : ∀ c ∈ t, isWritten c = true
  runs : HasPlainRuns t
  apart : ∀ p a b s, t = p ++ a :: b :: s → ¬(isOperator a = true ∧ isOperator b = true)
  leading : ∀ p c s, t = p ++ c :: s → isOperator c = true →
    p = [] ∨ (∃ q, p = q ++ ['(']) → c = '-'

def operatorRule (p : Text) (c : Char) : Prop :=
  isOperator c = true → p.endsWith isOperator = false ∧ (IsGroupStart p → c = '-')

def typingRule (p : Text) (c : Char) : Prop :=
  isWritten c = true ∧ pointRule p c ∧ operatorRule p c

theorem isGroupStart_iff (t : Text) : IsGroupStart t ↔ t = [] ∨ ∃ p, t = p ++ ['('] := by
  apply or_congr_right
  constructor
  · intro parenthesis
    obtain ⟨p, c, split, same⟩ := Text.exists_of_endsWith parenthesis
    rw [beq_iff_eq.1 same] at split
    exact ⟨p, split⟩
  · rintro ⟨p, rfl⟩
    exact Text.endsWith_append_singleton _ p '('

theorem keeps_operatorRule_iff (t : Text) :
    Keeps operatorRule t ↔
      (∀ p a b s, t = p ++ a :: b :: s → ¬(isOperator a = true ∧ isOperator b = true)) ∧
        ∀ p c s, t = p ++ c :: s → isOperator c = true →
          p = [] ∨ (∃ q, p = q ++ ['(']) → c = '-' := by
  constructor
  · intro keeps
    constructor
    · rintro p a b s split ⟨left, right⟩
      have parts : t = (p ++ [a]) ++ b :: s := by simpa using split
      have other := (keeps _ _ _ parts right).1
      rw [Text.endsWith_append_singleton, left] at other
      cases other
    · intro p c s split operator start
      exact (keeps p c s split operator).2 ((isGroupStart_iff p).2 start)
  · rintro ⟨apart, leading⟩ p c s split operator
    constructor
    · rw [Bool.eq_false_iff]
      intro ends
      obtain ⟨q, d, rfl, left⟩ := Text.exists_of_endsWith ends
      apply apart q d c s _ ⟨left, operator⟩
      rw [split, List.append_assoc, List.singleton_append]
    · intro start
      exact leading p c s split operator ((isGroupStart_iff p).1 start)

theorem isTypable_iff (t : Text) : IsTypable t ↔ Keeps typingRule t := by
  have rules : Keeps typingRule t ↔
      (∀ c ∈ t, isWritten c = true) ∧ HasPlainRuns t ∧ Keeps operatorRule t := by
    rw [← keeps_forall_mem, hasPlainRuns_iff, ← keeps_and, ← keeps_and]
    rfl
  rw [rules, keeps_operatorRule_iff]
  constructor
  · rintro ⟨written, runs, apart, leading⟩
    exact ⟨written, runs, apart, leading⟩
  · rintro ⟨written, runs, apart, leading⟩
    exact ⟨written, runs, apart, leading⟩

theorem isTypable_nil : IsTypable [] := (isTypable_iff []).2 keeps_nil

theorem isTypable_append_singleton {t : Text} {c : Char} :
    IsTypable (t ++ [c]) ↔ IsTypable t ∧ typingRule t c := by
  rw [isTypable_iff, isTypable_iff, keeps_append_singleton]

theorem IsTypable.before {s t : Text} (typable : IsTypable (s ++ t)) : IsTypable s := by
  rw [isTypable_iff] at typable ⊢
  exact typable.before

/-! ## What may be typed -/

theorem operatorRule_of_not {p : Text} {c : Char} (other : isOperator c = false) :
    operatorRule p c := by
  intro operator
  rw [other] at operator
  cases operator

theorem typingRule_digit (p : Text) {c : Char} (digit : c.isDigit = true) : typingRule p c := by
  have numeric := isNumeric_of_isDigit digit
  refine ⟨by rw [isWritten_eq, numeric, Bool.true_or], ?_,
    operatorRule_of_not (isOperator_eq_false numeric)⟩
  rintro rfl
  exact absurd digit (by decide)

theorem typingRule_group (p : Text) {c : Char} (group : c = '(' ∨ c = ')') : typingRule p c := by
  rcases group with rfl | rfl
  · exact ⟨by decide, fun point => absurd point (by decide), operatorRule_of_not (by decide)⟩
  · exact ⟨by decide, fun point => absurd point (by decide), operatorRule_of_not (by decide)⟩

theorem typingRule_operator {p : Text} {c : Char} (operator : isOperator c = true)
    (apart : p.endsWith isOperator = false) (leading : IsGroupStart p → c = '-') :
    typingRule p c := by
  refine ⟨?_, ?_, fun _ => ⟨apart, leading⟩⟩
  · rw [isWritten_eq, isDelimiter, operator, Bool.true_or, Bool.true_or, Bool.or_true]
  · rintro rfl
    exact absurd operator (by decide)

theorem typingRule_point {p : Text} (rule : pointRule p '.') : typingRule p '.' :=
  ⟨by decide, rule, operatorRule_of_not (by decide)⟩

theorem IsTypable.append_positional {t body : Text} (typable : IsTypable t)
    (ends : t.endsWith isNumeric = false) (positional : Decimal.IsPositional body) :
    IsTypable (t ++ body) := by
  rw [isTypable_iff] at typable ⊢
  rw [keeps_append]
  refine ⟨typable, ?_⟩
  intro p c s split
  have point := pointRule_of_isPositional ends positional p c s split
  have numeric := positional.isLiteral.numeric c (by rw [split]; simp)
  refine ⟨?_, point, operatorRule_of_not (isOperator_eq_false numeric)⟩
  rw [isWritten_eq, numeric, Bool.true_or]

/-! ## The run that is being typed -/

theorem exists_append_currentRun (t : Text) :
    ∃ q, t = q ++ currentRun t ∧ (∀ c ∈ currentRun t, isDelimiter c = false) ∧
      ∀ p c, q = p ++ [c] → isDelimiter c = true := by
  refine ⟨(t.reverse.dropWhile (!isDelimiter ·)).reverse, ?_, ?_, ?_⟩
  · rw [currentRun, ← List.reverse_append, List.takeWhile_append_dropWhile, List.reverse_reverse]
  · intro c member
    rw [currentRun, List.mem_reverse] at member
    simpa using List.all_eq_true.1 List.all_takeWhile c member
  · intro p c split
    have head := List.head?_dropWhile_not (!isDelimiter ·) t.reverse
    rw [eq_cons_of_reverse split] at head
    simpa using head

theorem endsWith_of_boundary {q : Text}
    (boundary : ∀ p c, q = p ++ [c] → isDelimiter c = true) : q.endsWith isNumeric = false := by
  rw [Bool.eq_false_iff]
  intro ends
  obtain ⟨p, c, ends, numeric⟩ := Text.exists_of_endsWith ends
  have delimiter := boundary p c ends
  rw [isDelimiter_eq_false ((isNumeric_iff c).1 numeric)] at delimiter
  cases delimiter

theorem endsWith_of_currentRun {t : Text} (run : currentRun t = []) :
    t.endsWith isNumeric = false := by
  obtain ⟨q, split, _, boundary⟩ := exists_append_currentRun t
  rw [run, List.append_nil] at split
  rw [split]
  exact endsWith_of_boundary boundary

theorem currentRun_append {q r : Text} (boundary : ∀ p c, q = p ++ [c] → isDelimiter c = true)
    (run : ∀ c ∈ r, isDelimiter c = false) : currentRun (q ++ r) = r := by
  have within : ∀ c ∈ r.reverse, (!isDelimiter c) = true := by
    intro c member
    rw [run c (List.mem_reverse.1 member), Bool.not_false]
  have stops : q.reverse.takeWhile (!isDelimiter ·) = [] := by
    rcases List.eq_nil_or_concat q with rfl | ⟨p, c, rfl⟩
    · rfl
    · rw [List.concat_eq_append, List.reverse_append]
      apply List.takeWhile_cons_of_neg
      rw [boundary p c List.concat_eq_append]
      decide
  rw [currentRun, List.reverse_append, List.takeWhile_append_of_pos within, stops, List.append_nil,
    List.reverse_reverse]

/-- A point may be typed exactly into a run that has something in it, and no point. -/
theorem pointRule_iff {t : Text} (written : ∀ c ∈ t, isWritten c = true) :
    pointRule t '.' ↔ currentRun t ≠ [] ∧ '.' ∉ currentRun t := by
  constructor
  · intro rule
    obtain ⟨q, digits, rfl, all, ends⟩ := rule rfl
    have run : currentRun (q ++ digits) = digits := by
      apply currentRun_append
      · rintro p c rfl
        have other := isNumeric_eq_not_isDelimiter (written c (by simp))
        rw [Text.endsWith_append_singleton] at ends
        rw [ends] at other
        simpa using other
      · intro c member
        exact isDelimiter_eq_false (.inl (all.2 c member))
    rw [run]
    exact ⟨all.1, not_mem_point all.2⟩
  · rintro ⟨nonempty, absent⟩ -
    obtain ⟨q, split, run, boundary⟩ := exists_append_currentRun t
    refine ⟨q, currentRun t, split, ⟨nonempty, digits_of_numeric ?_ absent⟩,
      endsWith_of_boundary boundary⟩
    intro c member
    have numeric := isNumeric_eq_not_isDelimiter (written c (by rw [split]; simp [member]))
    rw [run c member, Bool.not_false] at numeric
    exact numeric

theorem pointRule_leadingZero {t : Text} (run : currentRun t = []) :
    pointRule (t ++ ['0']) '.' := by
  intro _
  exact ⟨t, ['0'], rfl, ⟨by simp, by simp⟩, endsWith_of_currentRun run⟩

end DeskCalculator.Expression
