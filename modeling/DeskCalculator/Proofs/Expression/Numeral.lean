import DeskCalculator.Expression.Grammar
import DeskCalculator.Expression.LastNumber
/-!
The characters of numbers: a numeral is digits with at most one point, and a digit at least.
-/
namespace DeskCalculator.Expression

def isNumeric (c : Char) : Bool := c.isDigit || c == '.'

theorem isNumeric_iff (c : Char) : isNumeric c = true ↔ c.isDigit = true ∨ c = '.' := by
  simp [isNumeric]

theorem isDigit_of_isNumeric {c : Char} (numeric : isNumeric c = true) (other : c ≠ '.') :
    c.isDigit = true :=
  ((isNumeric_iff c).1 numeric).resolve_right other

theorem isNumeric_of_isDigit {c : Char} (digit : c.isDigit = true) : isNumeric c = true := by
  simp [isNumeric, digit]

theorem signless_of_numeric {c : Char} (numeric : c.isDigit = true ∨ c = '.') :
    ¬(c = ' ' ∨ c = '+') ∧ c ≠ '-' ∧ c ≠ '(' := by
  refine ⟨?_, ?_, ?_⟩
  · rintro (rfl | rfl) <;> exact absurd numeric (by decide)
  · rintro rfl
    exact absurd numeric (by decide)
  · rintro rfl
    exact absurd numeric (by decide)

theorem isDelimiter_eq_false {c : Char} (numeric : c.isDigit = true ∨ c = '.') :
    isDelimiter c = false := by
  rcases numeric with digit | rfl
  · rw [Bool.eq_false_iff]
    intro delimiter
    have cases : ((c = '+' ∨ c = '-' ∨ c = '*' ∨ c = '/') ∨ c = '(') ∨ c = ')' := by
      simpa [isDelimiter, isOperator_iff] using delimiter
    rcases cases with ((rfl | rfl | rfl | rfl) | rfl) | rfl <;> exact absurd digit (by decide)
  · rfl

theorem isOperator_eq_false {c : Char} (numeric : isNumeric c = true) : isOperator c = false := by
  have other := isDelimiter_eq_false ((isNumeric_iff c).1 numeric)
  simp only [isDelimiter, Bool.or_eq_false_iff] at other
  exact other.1.1

structure IsLiteral (t : Text) : Prop where
  numeric : ∀ c ∈ t, isNumeric c = true
  onePoint : t.count '.' ≤ 1

theorem not_mem_point {t : Text} (digits : ∀ c ∈ t, c.isDigit = true) : '.' ∉ t := by
  intro point
  exact absurd (digits '.' point) (by decide)

theorem count_point {t : Text} (digits : ∀ c ∈ t, c.isDigit = true) : t.count '.' = 0 :=
  List.count_eq_zero.2 (not_mem_point digits)

theorem isLiteral_singleton {c : Char} (numeric : isNumeric c = true) : IsLiteral [c] where
  numeric := by simpa using numeric
  onePoint := List.count_le_length

theorem IsLiteral.continues {u v : Text} {c : Char} (literal : IsLiteral (u ++ c :: v)) :
    continues u c = true := by
  have numeric := literal.numeric c (by simp)
  by_cases point : c = '.'
  · subst point
    have count := literal.onePoint
    simp only [List.count_append, List.count_cons_self] at count
    have absent : '.' ∉ u := List.count_eq_zero.1 (by omega)
    simp [Expression.continues, absent]
  · simp [Expression.continues, isDigit_of_isNumeric numeric point]

theorem not_continues {c : Char} (other : isNumeric c = false) (t : Text) :
    ¬Expression.continues t c = true := by
  simp only [isNumeric, Bool.or_eq_false_iff] at other
  simp [Expression.continues, other]

theorem IsLiteral.extend {u : Text} {c : Char} (literal : IsLiteral u)
    (goes : Expression.continues u c = true) : IsLiteral (u ++ [c]) := by
  simp only [Expression.continues, Bool.or_eq_true, Bool.and_eq_true, beq_iff_eq,
    Bool.not_eq_true', List.contains_eq_mem, decide_eq_false_iff_not] at goes
  constructor
  · intro d member
    rcases List.mem_append.1 member with old | new
    · exact literal.numeric d old
    · rw [List.mem_singleton.1 new, isNumeric_iff]
      exact goes.imp_right And.left
  · rw [List.count_append]
    rcases goes with digit | ⟨rfl, absent⟩
    · have other : ('.' : Char) ∉ [c] := not_mem_point (by simpa using digit)
      have old := literal.onePoint
      rw [List.count_eq_zero.2 other]
      exact old
    · have one : u.count '.' + ['.'].count '.' = 1 := by
        rw [List.count_eq_zero.2 absent, List.count_singleton_self]
      exact Nat.le_of_eq one

theorem digits_of_numeric {u : Text} (numeric : ∀ c ∈ u, isNumeric c = true) (absent : '.' ∉ u) :
    ∀ c ∈ u, c.isDigit = true := by
  intro c member
  apply isDigit_of_isNumeric (numeric c member)
  rintro rfl
  exact absent member

theorem isLiteral_digits {t : Text} (digits : ∀ c ∈ t, c.isDigit = true) : IsLiteral t where
  numeric := fun c member => isNumeric_of_isDigit (digits c member)
  onePoint := by rw [count_point digits]; exact Nat.zero_le 1

theorem isLiteral_point {a b : Text} (before : ∀ c ∈ a, c.isDigit = true)
    (after : ∀ c ∈ b, c.isDigit = true) : IsLiteral (a ++ '.' :: b) where
  numeric := by
    intro c member
    rcases List.mem_append.1 member with old | new
    · exact isNumeric_of_isDigit (before c old)
    · rcases List.mem_cons.1 new with rfl | later
      · rfl
      · exact isNumeric_of_isDigit (after c later)
  onePoint := by
    have one : (a ++ '.' :: b).count '.' = 1 := by
      rw [List.count_append, List.count_cons_self, count_point before, count_point after]
    exact Nat.le_of_eq one

theorem IsLiteral.around_point {a b : Text} (literal : IsLiteral (a ++ '.' :: b)) :
    (∀ c ∈ a, c.isDigit = true) ∧ ∀ c ∈ b, c.isDigit = true := by
  have count := literal.onePoint
  rw [List.count_append, List.count_cons_self] at count
  have noneBefore : '.' ∉ a := List.count_eq_zero.1 (by omega)
  have noneAfter : '.' ∉ b := List.count_eq_zero.1 (by omega)
  constructor
  · refine digits_of_numeric ?_ noneBefore
    intro c member
    exact literal.numeric c (List.mem_append_left _ member)
  · refine digits_of_numeric ?_ noneAfter
    intro c member
    exact literal.numeric c (List.mem_append_right a (List.mem_cons_of_mem '.' member))

theorem any_isDigit {t : Text} (digits : IsDigits t) : t.any Char.isDigit = true := by
  obtain ⟨c, member⟩ := List.exists_mem_of_ne_nil t digits.1
  exact List.any_eq_true.2 ⟨c, member, digits.2 c member⟩

theorem isNumeral_iff (t : Text) : IsNumeral t ↔ IsLiteral t ∧ t.any Char.isDigit = true := by
  constructor
  · intro numeral
    cases numeral with
    | whole digits => exact ⟨isLiteral_digits digits.2, any_isDigit digits⟩
    | pointAfter digits =>
      exact ⟨isLiteral_point digits.2 (by simp), by simp [any_isDigit digits]⟩
    | pointBetween before after =>
      exact ⟨isLiteral_point before.2 after.2, by simp [any_isDigit before]⟩
    | pointBefore digits =>
      exact ⟨isLiteral_point (a := []) (by simp) digits.2, by simp [any_isDigit digits]⟩
  · rintro ⟨literal, digit⟩
    by_cases point : '.' ∈ t
    · obtain ⟨a, b, rfl⟩ := List.append_of_mem point
      obtain ⟨before, after⟩ := literal.around_point
      cases a with
      | nil =>
        cases b with
        | nil => simp at digit
        | cons d b => exact .pointBefore ⟨List.cons_ne_nil d b, after⟩
      | cons d a =>
        cases b with
        | nil => exact .pointAfter ⟨List.cons_ne_nil d a, before⟩
        | cons e b =>
          exact .pointBetween ⟨List.cons_ne_nil d a, before⟩ ⟨List.cons_ne_nil e b, after⟩
    · refine .whole ⟨?_, digits_of_numeric literal.numeric point⟩
      rintro rfl
      simp at digit

end DeskCalculator.Expression
