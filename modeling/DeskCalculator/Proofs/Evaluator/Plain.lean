import DeskCalculator.Proofs.Evaluator.Value
import DeskCalculator.Proofs.Expression.Collapse
import DeskCalculator.Proofs.Expression.PlainReading
/-!
What cannot go wrong when a plain text is evaluated: it has no foreign character, and all of its
numbers can be read.
-/
namespace DeskCalculator

theorem ExpressionError.isLexical_unplaced (e : ExpressionError) :
    e.unplaced.isLexical = e.isLexical := by
  cases e <;> rfl

namespace Expression

/-! ## Foreign characters -/

theorem filter_collapsePair {p : Char → Bool} {a b c : Char} (first : p a = false)
    (second : p b = false) (merged : p c = false) (t : Text) :
    (collapsePair a b c t).filter p = t.filter p := by
  fun_induction collapsePair a b c t with
  | case1 _ _ rest same ih =>
    obtain ⟨rfl, rfl⟩ := same
    simp [first, second, merged, ih]
  | case2 d e rest other ih => rw [List.filter_cons, List.filter_cons, ih]
  | case3 => rfl

theorem filter_expandPercent (t : Text) :
    (expandPercent t).filter (!isAllowed ·) = t.filter fun c => !(isAllowed c || c == '%') := by
  induction t with
  | nil => rfl
  | cons c t ih =>
    have split : expandPercent (c :: t) =
        (if c = '%' then ['/', '1', '0', '0'] else [c]) ++ expandPercent t := rfl
    rw [split, List.filter_append, ih, List.filter_cons]
    by_cases percent : c = '%'
    · rw [if_pos percent, percent]
      rfl
    · have same : (!(isAllowed c || c == '%')) = !isAllowed c := by simp [percent]
      rw [if_neg percent, List.filter_cons, List.filter_nil, same]
      cases isAllowed c <;> rfl

theorem filter_normalize (t : Text) :
    (normalize t).filter (!isAllowed ·) = t.filter fun c => !(isAllowed c || c == '%') := by
  unfold normalize collapseSigns
  rw [filter_collapsePair rfl rfl rfl, filter_collapsePair rfl rfl rfl,
    filter_collapsePair rfl rfl rfl, filter_collapsePair rfl rfl rfl, filter_expandPercent]

theorem firstForeign?_normalize (t : Text) :
    firstForeign? (normalize t) = t.find? fun c => !(isAllowed c || c == '%') := by
  rw [firstForeign?, ← List.head?_filter, filter_normalize, List.head?_filter]

theorem isAllowed_of_isWritten {c : Char} (written : isWritten c = true) : isAllowed c = true := by
  rw [isWritten_eq, Bool.or_eq_true] at written
  rcases written with numeric | delimiter
  · rcases (isNumeric_iff c).1 numeric with digit | rfl
    · simp [isAllowed, digit]
    · rfl
  · simp only [isDelimiter, Bool.or_eq_true] at delimiter
    rcases delimiter with (operator | opening) | closing
    · simp [isAllowed, operator]
    · simp [isAllowed, opening]
    · simp [isAllowed, closing]

theorem firstForeign?_of_isWritten {t : Text} (written : ∀ c ∈ t, isWritten c = true) :
    firstForeign? (normalize t) = none := by
  rw [firstForeign?_normalize, List.find?_eq_none]
  intro c member
  simp [isAllowed_of_isWritten (written c member)]

theorem expandPercent_of_isWritten {t : Text} (written : ∀ c ∈ t, isWritten c = true) :
    expandPercent t = t := by
  induction t with
  | nil => rfl
  | cons c t ih =>
    have other : c ≠ '%' := by
      rintro rfl
      exact absurd (written '%' List.mem_cons_self) (by decide)
    have split : expandPercent (c :: t) =
        (if c = '%' then ['/', '1', '0', '0'] else [c]) ++ expandPercent t := rfl
    rw [split, if_neg other, ih (fun d member => written d (List.mem_cons_of_mem c member)),
      List.singleton_append]

end Expression

open Expression

/-! ## Plain texts -/

theorem Evaluator.valueOf_eq_error {e : Evaluator} {t : Text} {err : ExpressionError}
    (written : ∀ c ∈ t, isWritten c = true) (failed : e.valueOf t = .error err) :
    err = .notFinite ∨
      ∃ f, value Binary64.arithmetic t = .error f ∧ err.unplaced = f.unplaced := by
  rcases error_of_valueOf (firstForeign?_of_isWritten written) failed with range | normal
  · exact .inl range
  · obtain ⟨f, same, alike⟩ := exists_error_of_normalize Binary64.hasSignLaws normal
    rw [expandPercent_of_isWritten written] at same
    exact .inr ⟨f, same, alike⟩

theorem Evaluator.isLexical_valueOf {e : Evaluator} {t : Text} {err : ExpressionError}
    (plain : IsPlain t) (failed : e.valueOf t = .error err) : err.isLexical = false := by
  rcases valueOf_eq_error plain.written failed with rfl | ⟨f, read, alike⟩
  · rfl
  · rw [← err.isLexical_unplaced, alike, f.isLexical_unplaced]
    exact plain.isLexical_value Binary64.arithmetic read

theorem Evaluator.error_of_isSentence {e : Evaluator} {t : Text} {err : ExpressionError}
    (written : ∀ c ∈ t, isWritten c = true) (sentence : IsSentence t)
    (failed : e.valueOf t = .error err) :
    err = .divisionByZero ∨ err = .nestingTooDeep maxDepth ∨ err = .notFinite := by
  rcases valueOf_eq_error written failed with range | ⟨f, read, alike⟩
  · exact .inr (.inr range)
  · rcases Expression.error_of_isSentence Binary64.arithmetic sentence read with rfl | rfl
    · cases err <;> cases alike
      exact .inl rfl
    · cases err <;> cases alike
      exact .inr (.inl rfl)

/-! ## The values of trees -/

theorem Expression.value_normalize_of_isSentence {α : Type} {arith : Arithmetic α}
    (laws : arith.HasSignLaws) {t : Text} (written : ∀ c ∈ t, isWritten c = true)
    (sentence : IsSentence t) : value arith (normalize t) = value arith t := by
  have same := mapError_value_normalize laws t
  rw [expandPercent_of_isWritten written] at same
  cases evaluated : value arith t with
  | ok v =>
    rw [evaluated] at same
    cases normal : value arith (normalize t) with
    | ok w =>
      rw [normal] at same
      exact same
    | error d =>
      rw [normal] at same
      cases same
  | error f =>
    rw [evaluated] at same
    cases normal : value arith (normalize t) with
    | ok w =>
      rw [normal] at same
      cases same
    | error d =>
      rw [normal] at same
      have alike : d.unplaced = f.unplaced := Except.error.inj same
      rcases error_of_isSentence arith sentence evaluated with rfl | rfl
      · cases d <;> cases alike
        rfl
      · cases d <;> cases alike
        rfl

def Evaluator.valueOfTree (e : Evaluator) (tree : Tree) : Except ExpressionError Binary64 := do
  let v ← tree.valueWithin Binary64.arithmetic maxDepth
  if v.isFinite then .ok (v.roundDecimals e.roundingExponent) else .error .notFinite

theorem Evaluator.valueOf_eq_valueOfTree (e : Evaluator) {t : Text} {tree : Tree}
    (written : ∀ c ∈ t, isWritten c = true) (derives : Derives .sum t tree) :
    e.valueOf t = e.valueOfTree tree := by
  have evaluated := value_normalize_of_isSentence Binary64.hasSignLaws written ⟨tree, derives⟩
  rw [value_eq_valueWithin derives] at evaluated
  unfold valueOf valueOfTree
  dsimp only
  rw [firstForeign?_of_isWritten written, evaluated]

end DeskCalculator
