import DeskCalculator.Proofs.Expression.Typable
/-!
Texts with plain numbers, whatever their operators and parentheses are. Such a text can be cut
wherever no run of digits and points goes on, so its last number can be exchanged; and that number
is the run at the end of the text.
-/
namespace DeskCalculator.Expression

structure IsPlain (t : Text) : Prop where
  written : ∀ c ∈ t, isWritten c = true
  runs : HasPlainRuns t

def plainRule (p : Text) (c : Char) : Prop := isWritten c = true ∧ pointRule p c

theorem isPlain_iff (t : Text) : IsPlain t ↔ Keeps plainRule t := by
  have rules : Keeps plainRule t ↔ (∀ c ∈ t, isWritten c = true) ∧ HasPlainRuns t := by
    rw [hasPlainRuns_iff, ← keeps_forall_mem, ← keeps_and]
    rfl
  rw [rules]
  exact ⟨fun plain => ⟨plain.written, plain.runs⟩, fun both => ⟨both.1, both.2⟩⟩

theorem isPlain_nil : IsPlain [] := (isPlain_iff []).2 keeps_nil

theorem isPlain_append_singleton {t : Text} {c : Char} :
    IsPlain (t ++ [c]) ↔ IsPlain t ∧ plainRule t c := by
  rw [isPlain_iff, isPlain_iff, keeps_append_singleton]

theorem IsPlain.before {s t : Text} (plain : IsPlain (s ++ t)) : IsPlain s := by
  rw [isPlain_iff] at plain ⊢
  exact plain.before

theorem pointRule_append {s : Text} (ends : s.endsWith isNumeric = false) (p : Text) (c : Char) :
    pointRule (s ++ p) c ↔ pointRule p c := by
  apply imp_congr_right
  intro _
  constructor
  · rintro ⟨q, digits, split, all, starts⟩
    rcases List.append_eq_append_iff.1 split with ⟨m, rfl, rest⟩ | ⟨m, rfl, rest⟩
    · refine ⟨m, digits, rest, all, ?_⟩
      by_cases empty : m = []
      · rw [empty]
        rfl
      · rwa [Text.endsWith_append isNumeric s empty] at starts
    · have inside : ∀ d ∈ m, isNumeric d = true := by
        intro d member
        exact isNumeric_of_isDigit (all.2 d (by rw [rest]; exact List.mem_append_left p member))
      obtain rfl := eq_nil_of_endsWith ends inside
      exact ⟨[], digits, rest.symm, all, rfl⟩
  · rintro ⟨q, digits, rfl, all, starts⟩
    refine ⟨s ++ q, digits, (List.append_assoc s q digits).symm, all, ?_⟩
    by_cases empty : q = []
    · rw [empty, List.append_nil]
      exact ends
    · rw [Text.endsWith_append isNumeric s empty]
      exact starts

theorem isPlain_append {s t : Text} (ends : s.endsWith isNumeric = false) :
    IsPlain (s ++ t) ↔ IsPlain s ∧ IsPlain t := by
  rw [isPlain_iff, isPlain_iff, isPlain_iff, keeps_append]
  apply and_congr_right'
  constructor
  · intro keeps p c u split
    obtain ⟨written, point⟩ := keeps p c u split
    exact ⟨written, (pointRule_append ends p c).1 point⟩
  · intro keeps p c u split
    obtain ⟨written, point⟩ := keeps p c u split
    exact ⟨written, (pointRule_append ends p c).2 point⟩

/-! ## What may be added -/

theorem plainRule_of_isDelimiter (p : Text) {c : Char} (delimiter : isDelimiter c = true) :
    plainRule p c := by
  constructor
  · rw [isWritten_eq, delimiter, Bool.or_true]
  · rintro rfl
    exact absurd delimiter (by decide)

theorem isDelimiter_of_isOperator {c : Char} (operator : isOperator c = true) :
    isDelimiter c = true := by
  rw [isDelimiter, operator, Bool.true_or, Bool.true_or]

theorem IsPlain.append_delimiter {t : Text} (plain : IsPlain t) {c : Char}
    (delimiter : isDelimiter c = true) : IsPlain (t ++ [c]) :=
  isPlain_append_singleton.2 ⟨plain, plainRule_of_isDelimiter t delimiter⟩

theorem isPlain_positional {body : Text} (positional : Decimal.IsPositional body) :
    IsPlain body := by
  have typable := isTypable_nil.append_positional rfl positional
  exact ⟨typable.written, typable.runs⟩

theorem isPlain_display {x : Binary64} (finite : x.isFinite = true) : IsPlain x.display := by
  obtain ⟨body, positional, shown⟩ := Binary64.display_of_isFinite finite
  have plain := isPlain_positional positional
  rw [shown]
  split
  · have minus : IsPlain ['-'] := isPlain_nil.append_delimiter rfl
    exact (isPlain_append (s := ['-']) rfl).2 ⟨minus, plain⟩
  · exact plain

/-! ## The last number -/

theorem IsSignPlace.endsWith_isNumeric {t : Text} (place : IsSignPlace t) :
    t.endsWith isNumeric = false := by
  rcases place with rfl | ends
  · rfl
  · obtain ⟨p, c, rfl, sign⟩ := Text.exists_of_endsWith ends
    rw [Text.endsWith_append_singleton, Bool.eq_false_iff]
    intro numeric
    have other := isDelimiter_eq_false ((isNumeric_iff c).1 numeric)
    rw [isDelimiter, sign] at other
    cases other

theorem exists_atEnd? {t : Text} (ends : t.endsWith Char.isDigit = true) :
    ∃ n, LastNumber.atEnd? t = some n := by
  obtain ⟨p, c, rfl, digit⟩ := Text.exists_of_endsWith ends
  refine ⟨LastNumber.ofReversed (c :: p.reverse) [], ?_⟩
  simp [LastNumber.atEnd?, LastNumber.find?, digit, LastNumber.ofReversed]

namespace IsPlain

variable {t : Text} {n : LastNumber}

theorem around_last (plain : IsPlain t) (last : n.IsLastOf t) :
    IsPlain (n.before ++ n.sign.toList) ∧ IsPlain (n.digits ++ n.after) := by
  rw [← isPlain_append (endsWith_before_last last plain.runs), ← n.text_eq, last.text]
  exact plain

theorem negated (plain : IsPlain t) (last : n.IsLastOf t) : IsPlain n.negated := by
  obtain ⟨front, back⟩ := plain.around_last last
  rw [n.negated_eq, LastNumber.flippedSign]
  by_cases minus : n.sign = some '-'
  · have place := (last.signed '-' minus).2
    rw [if_pos minus, List.append_nil]
    exact (isPlain_append place.endsWith_isNumeric).2 ⟨front.before, back⟩
  · have signed : IsPlain (n.before ++ ['-']) := front.before.append_delimiter rfl
    rw [if_neg minus]
    exact (isPlain_append (Text.endsWith_append_singleton _ _ _)).2 ⟨signed, back⟩

theorem withDigits (plain : IsPlain t) (last : n.IsLastOf t) (atEnd : n.after = []) {body : Text}
    (positional : Decimal.IsPositional body) : IsPlain (n.withDigits body) := by
  obtain ⟨front, _⟩ := plain.around_last last
  rw [LastNumber.withDigits, atEnd, List.append_nil]
  exact (isPlain_append (endsWith_before_last last plain.runs)).2
    ⟨front, isPlain_positional positional⟩

theorem digits_eq_currentRun (plain : IsPlain t) (last : n.IsLastOf t) (atEnd : n.after = []) :
    n.digits = currentRun t := by
  have ends := endsWith_before_last last plain.runs
  obtain ⟨front, _⟩ := plain.around_last last
  rw [← last.text, n.text_eq, atEnd, List.append_nil]
  symm
  apply currentRun_append
  · intro p c split
    rw [split] at ends front
    rw [Text.endsWith_append_singleton, isNumeric_eq_not_isDelimiter (front.written c (by simp)),
      Bool.not_eq_false'] at ends
    exact ends
  · intro c member
    exact isDelimiter_eq_false ((isNumeric_iff c).1 (last.literal.numeric c member))

theorem atEnd?_digits (plain : IsPlain t) (ends : t.endsWith Char.isDigit = true) :
    (LastNumber.atEnd? t).map (·.digits) = some (currentRun t) := by
  obtain ⟨n, found⟩ := exists_atEnd? ends
  obtain ⟨here, atEnd⟩ := LastNumber.find?_of_atEnd? found
  rw [found, Option.map_some, plain.digits_eq_currentRun (LastNumber.isLastOf_of_find? here) atEnd]

end IsPlain

end DeskCalculator.Expression
