import DeskCalculator.Panel
import DeskCalculator.Proofs.Engine.Groups
/-!
What buttons do to the expression. A panel runs the operations of the inputs it is fed, and no
button has a parenthesis of its own, so groups stay well placed.
-/
namespace DeskCalculator

theorem Button.operation_ne (b : Button) :
    b.operation ≠ .openGroup ∧ b.operation ≠ .closeGroup := by
  cases b <;> decide

namespace Input

theorem operation_of_ofSymbol? {label : Text} {i : Input} (found : ofSymbol? label = some i) :
    i.operation ≠ .openGroup ∧ i.operation ≠ .closeGroup := by
  unfold ofSymbol? at found
  split at found
  next c =>
    split at found
    next =>
      cases found
      exact ⟨by simp [operation], by simp [operation]⟩
    next =>
      obtain ⟨op, _, rfl⟩ := Option.map_eq_some_iff.1 found
      exact ⟨by simp [operation], by simp [operation]⟩
  next => cases found

theorem operation_of_ofButton {label : Text} {i : Input} (read : ofButton label = .ok i) :
    i.operation ≠ .openGroup ∧ i.operation ≠ .closeGroup := by
  unfold ofButton at read
  dsimp only at read
  cases found : ofSymbol? (Text.trim label) with
  | some symbol =>
    rw [found] at read
    cases read
    exact operation_of_ofSymbol? found
  | none =>
    rw [found] at read
    dsimp only at read
    cases named : Button.ofName (Text.trim label) with
    | error => rw [named] at read; cases read
    | ok b =>
      rw [named] at read
      cases read
      exact b.operation_ne

theorem exists_label {labels : List Text} {inputs : List Input}
    (read : labels.mapM ofButton = .ok inputs) :
    ∀ i ∈ inputs, ∃ label ∈ labels, ofButton label = .ok i := by
  induction labels generalizing inputs with
  | nil =>
    cases read
    simp
  | cons label labels ih =>
    rw [List.mapM_cons] at read
    obtain ⟨first, here, read⟩ := Expression.bind_eq_ok.1 read
    obtain ⟨rest, later, read⟩ := Expression.bind_eq_ok.1 read
    cases read
    intro i member
    rcases List.mem_cons.1 member with rfl | member
    · exact ⟨label, List.mem_cons_self, here⟩
    · obtain ⟨other, among, same⟩ := ih later i member
      exact ⟨other, List.mem_cons_of_mem label among, same⟩

end Input

namespace Panel

open Expression Engine

variable {δ : Type} [Display δ]

theorem engine_feedAll (p : Panel δ) (inputs : List Input) :
    (p.feedAll inputs).engine = p.engine.run (inputs.map Input.operation) := by
  induction inputs generalizing p with
  | nil => rfl
  | cons i inputs ih => exact ih (p.feed i)

theorem frames_feedAll (p : Panel Recording) (inputs : List Input) :
    (p.feedAll inputs).display.frames = p.display.frames ++ (List.range inputs.length).map fun i =>
      (p.engine.run ((inputs.take (i + 1)).map Input.operation)).readout := by
  induction inputs generalizing p with
  | nil => exact (List.append_nil _).symm
  | cons input inputs ih =>
    have first : (p.feed input).display.frames =
        p.display.frames ++ [(p.engine.apply input.operation).readout] := rfl
    have rest : (p.feedAll (input :: inputs)).display.frames = _ := ih (p.feed input)
    rw [rest, first, List.length_cons, List.range_succ_eq_map, List.append_assoc, List.map_cons,
      List.map_map]
    rfl

/-- Under an accepted configuration, whatever buttons are pressed on a new panel, no part from the
start of the expression closes more groups than it opens, the open groups are those that are opened
and not closed, and a group is closed only after a digit, a point, or the end of another group. -/
theorem groups_of_buttons {config : Config} (accepted : config.validate = .ok config)
    (display : δ) {labels : List Text} {inputs : List Input}
    (read : labels.mapM Input.ofButton = .ok inputs) :
    let e := ((attach (initial config.evaluator) display).feedAll inputs).engine
    (∀ p s, e.expression = p ++ s → p.count ')' ≤ p.count '(') ∧
      e.openGroups + e.expression.count ')' = e.expression.count '(' ∧
      ∀ p s, e.expression = p ++ ')' :: s →
        p.endsWith (fun c => c.isDigit || c == '.' || c == ')') = true := by
  intro e
  have run : e = (initial config.evaluator).run (inputs.map Input.operation) :=
    engine_feedAll _ inputs
  have others : Operation.closeGroup ∉ inputs.map Input.operation := by
    intro member
    obtain ⟨i, among, closes⟩ := List.mem_map.1 member
    obtain ⟨label, _, button⟩ := Input.exists_label read i among
    exact (Input.operation_of_ofButton button).2 closes
  have placed : HasPlacedGroups e.expression := by
    rw [run]
    exact hasPlacedGroups_run accepted others
  have consistent : e.IsConsistent := by
    rw [run]
    exact isConsistent_run config.evaluator _
  refine ⟨placed.opened, ?_, placed.ended⟩
  rw [placed.count_eq, consistent.groups, Nat.add_comm]

theorem groups_of_buttons_nested :
    let labels := ["2".toList, "*".toList, "()".toList, "1".toList, "+".toList,
      " Parenthesis ".toList, "3".toList, "+/-".toList, "()".toList, "%".toList, "()".toList]
    let inputs : List Input := [.digit '2', .operator .multiply, .button .parenthesis, .digit '1',
      .operator .add, .button .parenthesis, .digit '3', .button .negate, .button .parenthesis,
      .button .percent, .button .parenthesis]
    let e := ((attach (initial ({} : Config).evaluator) (⟨[]⟩ : Recording)).feedAll inputs).engine
    ({} : Config).validate = .ok {} ∧ labels.mapM Input.ofButton = .ok inputs ∧
      e.expression = "2*(1+(-3))".toList ∧
      (∀ p s, e.expression = p ++ s → p.count ')' ≤ p.count '(') ∧
      e.openGroups + e.expression.count ')' = e.expression.count '(' ∧
      ∀ p s, e.expression = p ++ ')' :: s →
        p.endsWith (fun c => c.isDigit || c == '.' || c == ')') = true := by
  intro labels inputs e
  have accepted : ({} : Config).validate = .ok {} := by decide
  have read : labels.mapM Input.ofButton = .ok inputs := by decide
  exact ⟨accepted, read, by decide, groups_of_buttons accepted _ read⟩

end Panel

end DeskCalculator
