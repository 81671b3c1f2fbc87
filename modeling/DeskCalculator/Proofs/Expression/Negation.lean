import DeskCalculator.Proofs.Expression.Plain
/-!
Negating the last number of a text twice. The second time finds the minus sign that the first one
put, and the text is restored, unless the sign came after a closing parenthesis, where it is an
operator, or in the place of a plus sign, which is lost.
-/
namespace DeskCalculator

namespace Expression

def EndsWithSign (t : Text) : Prop := ∃ p c, t = p ++ [c] ∧ (c = '+' ∨ c = '-') ∧ IsSignPlace p

def loneSignRule (p : Text) (c : Char) : Prop := isOperator c = true → ¬EndsWithSign p

theorem EndsWithSign.endsWith_isOperator {t : Text} (sign : EndsWithSign t) :
    t.endsWith isOperator = true := by
  obtain ⟨p, c, rfl, rfl | rfl, _⟩ := sign
  · exact Text.endsWith_append_singleton isOperator p '+'
  · exact Text.endsWith_append_singleton isOperator p '-'

theorem endsWithSign_append_cons {p q : Text} {d : Char} (other : isOperator d = false) :
    EndsWithSign (p ++ d :: q) ↔ EndsWithSign (d :: q) := by
  rcases List.eq_nil_or_concat q with rfl | ⟨s, c, rfl⟩
  · have unsigned (r : Text) : ¬EndsWithSign (r ++ [d]) := by
      intro sign
      have operator := sign.endsWith_isOperator
      rw [Text.endsWith_append_singleton, other] at operator
      cases operator
    exact iff_of_false (unsigned p) (unsigned [])
  · have hides : IsSignPlace (p ++ d :: s) ↔ IsSignPlace (d :: s) := by
      simp only [IsSignPlace, Text.endsWith_append _ p (List.cons_ne_nil d s),
        List.append_eq_nil_iff, List.cons_ne_nil, and_false]
    have ends (r : Text) : EndsWithSign (r ++ [c]) ↔ (c = '+' ∨ c = '-') ∧ IsSignPlace r := by
      constructor
      · rintro ⟨u, e, split, mark, place⟩
        obtain ⟨rfl, same⟩ := List.append_inj' split rfl
        cases same
        exact ⟨mark, place⟩
      · rintro ⟨mark, place⟩
        exact ⟨r, c, rfl, mark, place⟩
    rw [List.concat_eq_append, ← List.cons_append, ← List.append_assoc, ends, ends, hides]

theorem keeps_loneSignRule_append_cons {s t : Text} {d : Char} (other : isOperator d = false) :
    Keeps loneSignRule (s ++ d :: t) ↔ Keeps loneSignRule s ∧ Keeps loneSignRule (d :: t) := by
  refine keeps_append_cons ?_ fun p q c => ?_
  · intro p operator
    rw [other] at operator
    cases operator
  · unfold loneSignRule
    rw [endsWithSign_append_cons other]

end Expression

namespace LastNumber

open Expression

theorem IsLastOf.not_endsWithSign {n : LastNumber} {t : Text} (last : n.IsLastOf t)
    (signs : Keeps loneSignRule t) : ¬EndsWithSign n.before := by
  cases sign : n.sign with
  | none =>
    rintro ⟨p, c, split, mark, place⟩
    exact last.unsigned sign p c split mark place
  | some c =>
    have split : t = n.before ++ c :: (n.digits ++ n.after) := by
      rw [← last.text, n.text_eq, sign, List.append_assoc]
      rfl
    apply signs n.before c _ split
    rcases (last.signed c sign).1 with rfl | rfl <;> rfl

theorem keeps_loneSignRule_negated {n : LastNumber} {t : Text} (last : n.IsLastOf t)
    (signs : Keeps loneSignRule t) : Keeps loneSignRule n.negated := by
  have alone := last.not_endsWithSign signs
  obtain ⟨d, digits, starts, numeric⟩ := last.starts
  have other := isOperator_eq_false numeric
  rw [← last.text, n.text_eq, starts, List.cons_append, keeps_loneSignRule_append_cons other]
    at signs
  rw [n.negated_eq, starts, List.cons_append, keeps_loneSignRule_append_cons other]
  refine ⟨?_, signs.2⟩
  unfold flippedSign
  split
  · rw [List.append_nil]
    exact signs.1.before
  · exact keeps_append_singleton.2 ⟨signs.1.before, fun _ => alone⟩

/-! ## The last number of a negated text -/

theorem IsLastOf.minus {n : LastNumber} {t : Text} (last : n.IsLastOf t)
    (place : IsSignPlace n.before) (other : n.sign ≠ some '-') :
    ({ n with sign := some '-' } : LastNumber).IsLastOf n.negated where
  text := by simp [LastNumber.text, negated, if_neg other]
  literal := last.literal
  ends := last.ends
  after := last.after
  longest := by
    intro p c split
    obtain ⟨rfl, same⟩ := List.append_inj' split rfl
    cases same
    exact ⟨rfl, by rintro ⟨⟩⟩
  signed := by
    rintro c ⟨⟩
    exact ⟨.inr rfl, place⟩
  unsigned := by rintro ⟨⟩

theorem IsLastOf.unsign {n : LastNumber} {t : Text} (last : n.IsLastOf t)
    (minus : n.sign = some '-') (alone : ¬EndsWithSign n.before) :
    ({ n with sign := none } : LastNumber).IsLastOf n.negated where
  text := by simp [LastNumber.text, negated, if_pos minus]
  literal := last.literal
  ends := last.ends
  after := last.after
  longest := by
    intro p c split
    rw [Option.toList_none, List.append_nil] at split
    change n.before = p ++ [c] at split
    have place := (last.signed '-' minus).2.endsWith_isNumeric
    rw [split, Text.endsWith_append_singleton, isNumeric, Bool.or_eq_false_iff] at place
    refine ⟨place.1, ?_⟩
    rintro rfl
    cases place.2
  signed := by rintro c ⟨⟩
  unsigned := by
    intro _ p c split mark place
    exact alone ⟨p, c, split, mark, place⟩

theorem IsLastOf.afterMinus {n : LastNumber} {t : Text} (last : n.IsLastOf t)
    (unmarked : n.sign = none) (inside : ¬IsSignPlace n.before) :
    ({ n with before := n.before ++ ['-'] } : LastNumber).IsLastOf n.negated where
  text := by simp [LastNumber.text, negated, unmarked]
  literal := last.literal
  ends := last.ends
  after := last.after
  longest := by
    intro p c split
    simp only [unmarked, Option.toList_none, List.append_nil] at split
    obtain ⟨rfl, same⟩ := List.append_inj' split rfl
    cases same
    exact ⟨rfl, by rintro ⟨⟩⟩
  signed := by
    intro c marked
    simp only [unmarked] at marked
    cases marked
  unsigned := by
    intro _ p c split _
    obtain ⟨rfl, _⟩ := List.append_inj' split rfl
    exact inside

end LastNumber

namespace Expression

open LastNumber (find?_eq_some_iff)

def negateLast (t : Text) : Text := ((LastNumber.find? t).map LastNumber.negated).getD t

theorem negateLast_of_isLastOf {n : LastNumber} {t : Text} (last : n.IsLastOf t) :
    negateLast t = n.negated := by
  rw [negateLast, find?_eq_some_iff.2 last]
  rfl

theorem IsSignPlace.endsWith_closing {t : Text} (place : IsSignPlace t) :
    t.endsWith (· == ')') = false := by
  rcases place with rfl | ends
  · rfl
  · obtain ⟨p, c, rfl, sign⟩ := Text.exists_of_endsWith ends
    rw [Text.endsWith_append_singleton, beq_eq_false_iff_ne]
    rintro rfl
    cases sign

theorem isSignPlace_before_iff {n : LastNumber} {t : Text} (plain : IsPlain t)
    (last : n.IsLastOf t) (unmarked : n.sign = none) :
    IsSignPlace n.before ↔ n.before.endsWith (· == ')') = false := by
  refine ⟨IsSignPlace.endsWith_closing, ?_⟩
  intro other
  obtain ⟨front, _⟩ := plain.around_last last
  have ends := endsWith_before_last last plain.runs
  rw [unmarked, Option.toList_none, List.append_nil] at front ends
  rcases List.eq_nil_or_concat n.before with empty | ⟨p, c, split⟩
  · exact .inl empty
  · rw [List.concat_eq_append] at split
    rw [split, Text.endsWith_append_singleton] at ends other
    rw [split] at front
    have written := front.written c (by simp)
    rw [isNumeric_eq_not_isDelimiter written, Bool.not_eq_false', isDelimiter, other,
      Bool.or_false, Bool.or_eq_true, beq_iff_eq] at ends
    rw [split, isSignPlace_append_singleton]
    exact ends

theorem negateLast_negateLast_iff {t : Text} (plain : IsPlain t) (signs : Keeps loneSignRule t) :
    negateLast (negateLast t) = t ↔ ∀ n, LastNumber.find? t = some n →
      n.sign ≠ some '+' ∧ n.before.endsWith (· == ')') = false := by
  cases found : LastNumber.find? t with
  | none =>
    have same : negateLast t = t := by rw [negateLast, found]; rfl
    rw [same, same]
    exact iff_of_true rfl (by rintro n ⟨⟩)
  | some n =>
    have last := find?_eq_some_iff.1 found
    simp only [Option.some.injEq, forall_eq']
    rw [negateLast_of_isLastOf last]
    cases sign : n.sign with
    | none =>
      by_cases place : IsSignPlace n.before
      · rw [negateLast_of_isLastOf (last.minus place (by rw [sign]; decide))]
        refine iff_of_true ?_ ⟨by decide, place.endsWith_closing⟩
        rw [← last.text]
        simp [LastNumber.negated, LastNumber.text, sign]
      · -- The second minus sign stands after the first one.
        rw [negateLast_of_isLastOf (last.afterMinus sign place)]
        refine iff_of_false ?_ fun both => place ((isSignPlace_before_iff plain last sign).2 both.2)
        rw [← last.text]
        intro same
        have lengths := congrArg List.length same
        simp only [LastNumber.negated, LastNumber.text, sign, reduceCtorEq, if_false,
          List.length_append, List.length_cons, Option.toList_none, List.length_nil] at lengths
        omega
    | some c =>
      obtain ⟨rfl | rfl, place⟩ := last.signed c sign
      · -- The minus sign that took the place of the plus sign goes.
        rw [negateLast_of_isLastOf (last.minus place (by rw [sign]; decide))]
        refine iff_of_false ?_ fun both => both.1 rfl
        rw [← last.text]
        intro same
        have lengths := congrArg List.length same
        simp only [LastNumber.negated, LastNumber.text, sign, if_true, List.length_append,
          Option.toList_some, List.length_cons, List.length_nil] at lengths
        omega
      · rw [negateLast_of_isLastOf (last.unsign sign (last.not_endsWithSign signs))]
        refine iff_of_true ?_ ⟨by decide, place.endsWith_closing⟩
        rw [← last.text]
        simp [LastNumber.negated, LastNumber.text, sign]

end Expression

end DeskCalculator
