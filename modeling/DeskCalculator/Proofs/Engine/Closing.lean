import DeskCalculator.Proofs.Engine.Plain
import DeskCalculator.Proofs.Expression.Completion
/-!
What the equals key evaluates. The open groups that the engine counts are those that a sentence has
still to close; so where an expression ends in an operand and could go on to a sentence, what is
evaluated is one, and it fails only over what it comes to.
-/
namespace DeskCalculator

open Expression

namespace Engine

theorem eq_groupStep {opened before : Nat} {c : Char}
    (groups : opened + [c].count ')' = before + [c].count '(') : opened = groupStep before c := by
  unfold groupStep
  split
  next opening =>
    subst opening
    exact groups
  next notOpening =>
    have noOpening : [c].count '(' = 0 := by simp [notOpening]
    split
    next closing =>
      subst closing
      have one : [')'].count ')' = 1 := rfl
      omega
    next notClosing =>
      have others : [c].count ')' = 0 := by simp [notClosing]
      omega

theorem length_enclosing {t : Text} {r : Reading Tree} (led : Tree.advance .start t = some r) :
    r.enclosing.length = countOpenGroups t := by
  induction t using List.reverseRecOn generalizing r with
  | nil =>
    cases led
    rfl
  | append_singleton t c ih =>
    rw [Tree.advance_append_singleton] at led
    obtain ⟨earlier, led, moved⟩ := Option.bind_eq_some_iff.1 led
    rw [countOpenGroups, List.foldl_append, eq_groupStep (groups_step moved), ih led]
    rfl

theorem eq_of_isSentence {t : Text} {m n : Nat} (first : IsSentence (t ++ List.replicate m ')'))
    (second : IsSentence (t ++ List.replicate n ')')) : m = n := by
  have left := first.hasMatchedGroups.1
  have right := second.hasMatchedGroups.1
  have noOpening (k : Nat) : (List.replicate k ')').count '(' = 0 := by simp [List.count_replicate]
  rw [List.count_append, List.count_append, noOpening, List.count_replicate_self] at left right
  omega

theorem isSentence_closed {e : Engine} (consistent : e.IsConsistent) (plain : IsPlain e.expression)
    (ends : e.expression.endsWith (fun c => c.isDigit || c == '.' || c == ')') = true)
    {s : Text} (viable : IsSentence (e.expression ++ s)) : IsSentence e.closed := by
  obtain ⟨tree, derives⟩ := viable
  obtain ⟨_, led, _⟩ := Option.bind_eq_some_iff.1 (ofText?_of_derives derives)
  obtain ⟨r, begun, _⟩ := exists_advance led
  rw [closed, consistent.groups, ← length_enclosing begun]
  exact isSentence_closing plain ends begun

theorem apply_equals {e : Engine} (nonempty : e.expression ≠ []) :
    e.apply .equals = match e.evaluator.valueOf e.closed with
      | .ok v => { e.replaceWith v with latest := .equals }
      | .error _ => e.failed := by
  change e.equals = _
  rw [equals, if_neg nonempty, Evaluator.outcome]
  cases e.evaluator.valueOf e.closed <;> rfl

/-- Under an accepted configuration, let an expression end with a digit, a point or a closing
parenthesis, and let some sentence start with it. Then what the equals key evaluates is a sentence,
no other number of closing parentheses would make it one, and the key either gives a result or fails
over a division by zero, the depth, or the range of doubles. -/
theorem isSentence_closed_run {config : Config} (accepted : config.validate = .ok config)
    (operations : List Operation) :
    let e := (initial config.evaluator).run operations
    e.expression.endsWith (fun c => c.isDigit || c == '.' || c == ')') = true →
    (∃ s, IsSentence (e.expression ++ s)) →
      IsSentence e.closed ∧ HasMatchedGroups e.closed ∧
        (∀ n, IsSentence (e.expression ++ List.replicate n ')') → n = e.openGroups) ∧
        ((∃ v, e.evaluator.valueOf e.closed = .ok v ∧
            e.apply .equals = { e.replaceWith v with latest := .equals }) ∨
          ∃ err, e.evaluator.valueOf e.closed = .error err ∧ e.apply .equals = e.failed ∧
            (err = .divisionByZero ∨ err = .nestingTooDeep 256 ∨ err = .notFinite)) := by
  intro e ends
  rintro ⟨s, viable⟩
  have consistent : e.IsConsistent := isConsistent_run config.evaluator operations
  have plain : IsPlain e.expression := isPlain_run accepted operations
  have sentence : IsSentence e.closed := isSentence_closed consistent plain ends viable
  have nonempty : e.expression ≠ [] := by
    intro empty
    rw [empty] at ends
    cases ends
  refine ⟨sentence, sentence.hasMatchedGroups, fun n other => eq_of_isSentence other sentence, ?_⟩
  have pressed := e.apply_equals nonempty
  cases outcome : e.evaluator.valueOf e.closed with
  | ok v =>
    rw [outcome] at pressed
    exact .inl ⟨v, rfl, pressed⟩
  | error err =>
    rw [outcome] at pressed
    exact .inr ⟨err, rfl, pressed,
      Evaluator.error_of_isSentence (isPlain_closed plain).written sentence outcome⟩

theorem isSentence_closed_run_nested :
    let typed : List Operation :=
      [.digit '2', .operator .multiply, .parenthesis, .digit '3', .operator .divide, .openGroup,
        .digit '4', .operator .subtract, .digit '4', .digit '.']
    let e := (initial ({} : Config).evaluator).run typed
    ({} : Config).validate = .ok {} ∧ IsSentence e.closed ∧ HasMatchedGroups e.closed ∧
      (∀ n, IsSentence (e.expression ++ List.replicate n ')') → n = e.openGroups) ∧
      ((∃ v, e.evaluator.valueOf e.closed = .ok v ∧
          e.apply .equals = { e.replaceWith v with latest := .equals }) ∨
        ∃ err, e.evaluator.valueOf e.closed = .error err ∧ e.apply .equals = e.failed ∧
          (err = .divisionByZero ∨ err = .nestingTooDeep 256 ∨ err = .notFinite)) := by
  intro typed e
  have accepted : ({} : Config).validate = .ok {} := by decide
  have ends : e.expression.endsWith (fun c => c.isDigit || c == '.' || c == ')') = true := by decide
  have viable : IsSentence (e.expression ++ "5))+1".toList) := by decide
  exact ⟨accepted, isSentence_closed_run accepted typed ends ⟨_, viable⟩⟩

end Engine

end DeskCalculator
