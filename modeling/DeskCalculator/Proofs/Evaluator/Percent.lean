import DeskCalculator.Proofs.Evaluator.Plain
import DeskCalculator.Proofs.Evaluator.Value
import DeskCalculator.Proofs.Expression.Percent
/-!
What a percent sign comes to. A blank after the hundred makes every percent sign a division by a
hundred; the evaluator writes no blank, so a digit or point after a percent sign is read into the
hundred.
-/
namespace DeskCalculator

open Expression

theorem Expression.find?_replacePercent {p : Char → Bool} {block : Text}
    (hidden : block.find? p = none) (percent : p '%' = false) (t : Text) :
    (replacePercent block t).find? p = t.find? p := by
  induction t with
  | nil => rfl
  | cons c t ih =>
    by_cases same : c = '%'
    · subst same
      rw [replacePercent_percent, List.find?_append, hidden, Option.none_or, ih,
        List.find?_cons_of_neg (Bool.eq_false_iff.1 percent)]
    · rw [replacePercent_cons same, List.find?_cons, List.find?_cons, ih]

theorem Expression.firstForeign?_spacePercent (t : Text) :
    firstForeign? (normalize (spacePercent t)) = firstForeign? (normalize t) := by
  rw [firstForeign?_normalize, firstForeign?_normalize]
  exact find?_replacePercent (by decide) (by decide) t

theorem Expression.value_spacePercent_iff {α : Type} (arith : Arithmetic α) (t : Text) (v : α) :
    value arith (spacePercent t) = .ok v ↔
      value arith (expandPercent t) = .ok v ∧ PercentsEnd t := by
  rw [(value_eq_ok_iff arith _ v).2, (value_eq_ok_iff arith _ v).2]
  simp only [derives_spacePercent_iff]
  constructor
  · intro ⟨e, ⟨derives, ends⟩, evaluated⟩
    exact ⟨⟨e, derives, evaluated⟩, ends⟩
  · intro ⟨⟨e, derives, evaluated⟩, ends⟩
    exact ⟨e, ⟨derives, ends⟩, evaluated⟩

/-- A text in which every percent sign divides by exactly a hundred has the value and the tree of
the text as it is read, if no digit or point stands right after a percent sign; and otherwise it has
neither. -/
theorem Evaluator.valueOf_spacePercent_iff (e : Evaluator) (t : Text) :
    (∀ v, e.valueOf (spacePercent t) = .ok v ↔ e.valueOf t = .ok v ∧ PercentsEnd t) ∧
      ∀ tree, Derives .sum (normalize (spacePercent t)) tree ↔
        Derives .sum (normalize t) tree ∧ PercentsEnd t := by
  have ends := percentsEnd_collapseSigns t
  constructor
  · intro v
    rw [valueOf_eq_ok_iff, valueOf_eq_ok_iff, firstForeign?_spacePercent, normalize_spacePercent,
      normalize_eq_expandPercent]
    simp only [value_spacePercent_iff, ends]
    constructor
    · intro ⟨allowed, x, ⟨read, apart⟩, rounded⟩
      exact ⟨⟨allowed, x, read, rounded⟩, apart⟩
    · intro ⟨⟨allowed, x, read, rounded⟩, apart⟩
      exact ⟨allowed, x, ⟨read, apart⟩, rounded⟩
  · intro tree
    rw [normalize_spacePercent, normalize_eq_expandPercent, derives_spacePercent_iff, ends]

theorem Evaluator.exists_hundred_continued :
    let t := "50%5".toList
    Derives .sum (normalize t) (.binary .divide (.number "50".toList) (.number "1005".toList)) ∧
      (default.valueOf t).toOption.map Binary64.display = some "0.0497512438".toList ∧
      default.valueOf (spacePercent t) = .error (.trailingInput 7) := by
  intro t
  exact ⟨(derives_iff_ofText? _ _).2 (by decide), by decide +kernel, by decide +kernel⟩

end DeskCalculator
