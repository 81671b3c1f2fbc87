import DeskCalculator.Proofs.Engine.Closing
/-!
Groups that are closed only where one is open and an operand has ended. The parenthesis key and all
other operations keep them so; only a closing parenthesis of its own can do otherwise. The open
groups that the engine counts are then those that the expression has still to close.
-/
namespace DeskCalculator

namespace Expression

open Engine

/-- No part from the start of the text closes more groups than it opens, and a group is closed only
after a digit, a point, or the end of another group. -/
structure HasPlacedGroups (t : Text) : Prop where
  opened : ∀ p s, t = p ++ s → p.count ')' ≤ p.count '('
  ended : ∀ p s, t = p ++ ')' :: s →
    p.endsWith (fun c => c.isDigit || c == '.' || c == ')') = true

def closingRule (p : Text) (c : Char) : Prop :=
  c = ')' → p.count ')' < p.count '(' ∧
    p.endsWith (fun c => c.isDigit || c == '.' || c == ')') = true

theorem count_of_closingRule {t : Text} (keeps : Keeps closingRule t) :
    t.count ')' ≤ t.count '(' := by
  induction t using List.reverseRecOn with
  | nil => exact le_rfl
  | append_singleton t c ih =>
    obtain ⟨before, rule⟩ := keeps_append_singleton.1 keeps
    have earlier := ih before
    rw [List.count_append, List.count_append]
    by_cases closing : c = ')'
    · have room := (rule closing).1
      subst closing
      simp only [List.count_singleton_self]
      omega
    · have noClosing : [c].count ')' = 0 := by simp [closing]
      omega

theorem hasPlacedGroups_iff (t : Text) : HasPlacedGroups t ↔ Keeps closingRule t := by
  constructor
  · intro placed p c s split closing
    subst closing
    refine ⟨?_, placed.ended p s split⟩
    have one := placed.opened (p ++ [')']) s (by rw [split, List.append_assoc]; rfl)
    rw [List.count_append, List.count_append, List.count_singleton_self] at one
    have noOpening : [')'].count '(' = 0 := by decide
    omega
  · intro keeps
    refine ⟨?_, fun p s split => (keeps p ')' s split rfl).2⟩
    intro p s split
    rw [split] at keeps
    exact count_of_closingRule keeps.before

namespace HasPlacedGroups

theorem nil : HasPlacedGroups [] := (hasPlacedGroups_iff []).2 keeps_nil

theorem append_singleton {t : Text} {c : Char} :
    HasPlacedGroups (t ++ [c]) ↔ HasPlacedGroups t ∧ closingRule t c := by
  rw [hasPlacedGroups_iff, hasPlacedGroups_iff, keeps_append_singleton]

theorem before {s t : Text} (placed : HasPlacedGroups (s ++ t)) : HasPlacedGroups s := by
  rw [hasPlacedGroups_iff] at placed ⊢
  exact placed.before

theorem append {t u : Text} (placed : HasPlacedGroups t) (others : ')' ∉ u) :
    HasPlacedGroups (t ++ u) := by
  rw [hasPlacedGroups_iff] at placed ⊢
  refine keeps_append.2 ⟨placed, ?_⟩
  intro p c s split closing
  subst closing
  exact absurd (by rw [split]; simp) others

theorem append_groupless {t u : Text} (placed : HasPlacedGroups t) (groupless : IsGroupless u) :
    HasPlacedGroups (t ++ u) :=
  placed.append (fun member => (groupless _ member).2 rfl)

theorem exchange {s u v t : Text} (placed : HasPlacedGroups ((s ++ u) ++ t))
    (old : IsGroupless u) (new : IsGroupless v) (starts : ∀ c w, t = c :: w → c ≠ ')') :
    HasPlacedGroups ((s ++ v) ++ t) := by
  obtain ⟨front, back⟩ := keeps_append.1 ((hasPlacedGroups_iff _).1 placed)
  have first : HasPlacedGroups (s ++ v) :=
    ((hasPlacedGroups_iff _).2 front).before.append_groupless new
  refine (hasPlacedGroups_iff _).2 (keeps_append.2 ⟨(hasPlacedGroups_iff _).1 first, ?_⟩)
  intro p c w split closing
  have nonempty : p ≠ [] := by
    intro empty
    rw [empty] at split
    exact starts c w split closing
  obtain ⟨room, ends⟩ := back p c w split closing
  rw [Text.endsWith_append _ _ nonempty] at ends ⊢
  refine ⟨?_, ends⟩
  simp only [List.count_append, old.count.1, old.count.2] at room
  simp only [List.count_append, new.count.1, new.count.2]
  exact room

theorem negated {t : Text} {n : LastNumber} (placed : HasPlacedGroups t) (last : n.IsLastOf t) :
    HasPlacedGroups n.negated := by
  rw [← last.text, n.text_eq] at placed
  rw [n.negated_eq]
  apply placed.exchange (isGroupless_sign last) (isGroupless_flippedSign n)
  obtain ⟨d, digits, split, numeric⟩ := last.starts
  intro c w same
  rw [split, List.cons_append] at same
  obtain ⟨rfl, _⟩ := List.cons_eq_cons.1 same
  rintro rfl
  exact absurd numeric (by decide)

theorem withDigits {t : Text} {n : LastNumber} (placed : HasPlacedGroups t) (last : n.IsLastOf t)
    (atEnd : n.after = []) {body : Text} (groupless : IsGroupless body) :
    HasPlacedGroups (n.withDigits body) := by
  rw [← last.text, n.text_eq] at placed
  rw [LastNumber.withDigits, atEnd, List.append_nil]
  exact placed.before.append_groupless groupless

theorem count_eq {t : Text} (placed : HasPlacedGroups t) :
    t.count '(' = t.count ')' + countOpenGroups t := by
  induction t using List.reverseRecOn with
  | nil => rfl
  | append_singleton t c ih =>
    have earlier := ih placed.before
    have bound := placed.opened (t ++ [c]) [] (List.append_nil _).symm
    rw [List.count_append, List.count_append] at bound ⊢
    have moved : countOpenGroups t + [c].count '(' - [c].count ')' =
        groupStep (countOpenGroups t) c := eq_groupStep (by omega)
    have next : countOpenGroups (t ++ [c]) = groupStep (countOpenGroups t) c := by
      rw [countOpenGroups, List.foldl_append]
      rfl
    rw [next, ← moved]
    omega

end HasPlacedGroups

end Expression

namespace Engine

open Expression

/-! ## Operations -/

theorem endsWith_of_not_isOperandDue {t : Text} (written : ∀ c ∈ t, isWritten c = true)
    (nonempty : t ≠ []) (ended : isOperandDue t = false) :
    t.endsWith (fun c => c.isDigit || c == '.' || c == ')') = true := by
  rcases List.eq_nil_or_concat t with rfl | ⟨p, c, rfl⟩
  · exact absurd rfl nonempty
  · rw [List.concat_eq_append] at written ended ⊢
    have last := written c (by simp)
    rw [isOperandDue_append_singleton] at ended
    rw [isWritten_eq, isDelimiter, ended, Bool.false_or] at last
    rw [Text.endsWith_append_singleton]
    exact last

theorem hasPlacedGroups_parenthesis {e : Engine} (consistent : e.IsConsistent)
    (written : ∀ c ∈ e.expression, isWritten c = true) (placed : HasPlacedGroups e.expression) :
    HasPlacedGroups e.parenthesis.expression := by
  unfold parenthesis
  split
  next => exact placed.append (by decide)
  next closes =>
    obtain ⟨someOpen, _, ended⟩ : e.openGroups ≠ 0 ∧ _ ∧ ¬e.operandDue = true := by
      simpa only [not_or] using closes
    rw [consistent.groups] at someOpen
    rw [consistent.due, Bool.not_eq_true] at ended
    have nonempty : e.expression ≠ [] := by
      intro empty
      rw [empty] at someOpen
      exact someOpen rfl
    refine HasPlacedGroups.append_singleton.2 ⟨placed, fun _ => ⟨?_, ?_⟩⟩
    · have count := placed.count_eq
      omega
    · exact endsWith_of_not_isOperandDue written nonempty ended

theorem hasPlacedGroups_apply {e : Engine} {op : Operation} (other : op ≠ .closeGroup)
    (consistent : e.IsConsistent) (written : ∀ c ∈ e.expression, isWritten c = true)
    (placed : HasPlacedGroups e.expression) : HasPlacedGroups (e.apply op).expression := by
  by_cases key : op = .parenthesis
  · rw [key]
    exact hasPlacedGroups_parenthesis consistent written placed
  · have change := e.change_apply op
    generalize e.apply op = e' at change
    have resumed : HasPlacedGroups e.resumed.expression := holds_resumed .nil placed
    cases change with
    | none => exact placed
    | digit digit =>
      have numeric := isLiteral_singleton (isNumeric_of_isDigit digit)
      exact resumed.append_groupless (isGroupless_literal numeric)
    | point => exact resumed.append (by decide)
    | leadingPoint => exact resumed.append (by decide)
    | sign => exact placed.append (by decide)
    | replace split =>
      rw [split] at placed
      exact placed.before.append_groupless (isGroupless_singleton (isOperator_symbol _))
    | append => exact placed.append_groupless (isGroupless_singleton (isOperator_symbol _))
    | negate found => exact placed.negated (LastNumber.isLastOf_of_find? found)
    | delete split =>
      rw [split] at placed
      exact placed.before
    | clear => exact .nil
    | openGroup => exact placed.append (by decide)
    | closeGroup closes => exact absurd closes (not_or.2 ⟨other, key⟩)
    | percent found =>
      obtain ⟨found, atEnd⟩ := LastNumber.find?_of_atEnd? found
      exact placed.withDigits (LastNumber.isLastOf_of_find? found) atEnd (isGroupless_display _)
    | root | square | result =>
      exact HasPlacedGroups.nil.append_groupless (isGroupless_display _)
    | fail => exact .nil

theorem hasPlacedGroups_run {config : Config} (accepted : config.validate = .ok config)
    {operations : List Operation} (others : .closeGroup ∉ operations) :
    HasPlacedGroups ((initial config.evaluator).run operations).expression := by
  induction operations using List.reverseRecOn with
  | nil => exact .nil
  | append_singleton operations op ih =>
    rw [List.mem_append, not_or] at others
    obtain ⟨earlier, last⟩ := others
    have other : op ≠ .closeGroup := fun same => last (by rw [same]; exact List.mem_cons_self)
    rw [run_append_singleton]
    exact hasPlacedGroups_apply other (isConsistent_run config.evaluator operations)
      (isPlain_run accepted operations).written (ih earlier)

end Engine

end DeskCalculator
