import DeskCalculator.CommandLine.Program
import DeskCalculator.Proofs.Engine.Plain
import DeskCalculator.Proofs.Panel.Buttons
/-!
What presses print. The labels are read before the first of them counts, so a label that no button
has leaves nothing but its error. Else the panel shows the readout of a new engine first and after
every button, and the lines of a trace are these without the first.
-/
namespace DeskCalculator

namespace CommandLine

open Engine (initial)

/-! ## Reading labels -/

def IsButton (label : Text) : Prop := ∃ i, Input.ofButton label = .ok i

instance (label : Text) : Decidable (IsButton label) :=
  match read : Input.ofButton label with
  | .ok i => .isTrue ⟨i, read⟩
  | .error _ => .isFalse fun known => by
    obtain ⟨i, same⟩ := known
    rw [read] at same
    cases same

theorem readButtons_of_rejected {before : List Text} {label : Text} {e : UnknownButton}
    (accepted : ∀ other ∈ before, IsButton other) (rejected : Input.ofButton label = .error e)
    (after : List Text) :
    readButtons (before ++ label :: after) = .error e := by
  unfold readButtons
  induction before with
  | nil =>
    rw [List.nil_append, List.mapM_cons, rejected]
    rfl
  | cons other before ih =>
    obtain ⟨i, read⟩ := accepted other List.mem_cons_self
    have later := ih fun another member => accepted another (List.mem_cons_of_mem other member)
    rw [List.cons_append, List.mapM_cons, read, later]
    rfl

theorem readButtons_of_accepted {labels : List Text} {inputs : List Input}
    (accepted : labels.map Input.ofButton = inputs.map .ok) : readButtons labels = .ok inputs := by
  unfold readButtons
  induction labels generalizing inputs with
  | nil =>
    cases inputs with
    | nil => rfl
    | cons => cases accepted
  | cons label labels ih =>
    cases inputs with
    | nil => cases accepted
    | cons i inputs =>
      obtain ⟨read, others⟩ := List.cons_eq_cons.1 accepted
      rw [List.mapM_cons, read, ih others]
      rfl

theorem exists_first_rejected {labels : List Text} (refused : ∃ label ∈ labels, ¬IsButton label) :
    ∃ before label after e, labels = before ++ label :: after ∧
      (∀ other ∈ before, IsButton other) ∧ Input.ofButton label = .error e := by
  induction labels with
  | nil => simp at refused
  | cons label labels ih =>
    cases read : Input.ofButton label with
    | error e => exact ⟨[], label, labels, e, rfl, by simp, read⟩
    | ok i =>
      have later : ∃ label ∈ labels, ¬IsButton label := by
        obtain ⟨other, member, unknown⟩ := refused
        rcases List.mem_cons.1 member with rfl | member
        · exact absurd ⟨i, read⟩ unknown
        · exact ⟨other, member, unknown⟩
      obtain ⟨before, other, after, e, rfl, accepted, rejected⟩ := ih later
      refine ⟨label :: before, other, after, e, rfl, ?_, rejected⟩
      exact List.forall_mem_cons.2 ⟨⟨i, read⟩, accepted⟩

theorem exists_inputs {labels : List Text} (accepted : ∀ label ∈ labels, IsButton label) :
    ∃ inputs : List Input, labels.map Input.ofButton = inputs.map .ok := by
  induction labels with
  | nil => exact ⟨[], rfl⟩
  | cons label labels ih =>
    obtain ⟨⟨i, read⟩, others⟩ := List.forall_mem_cons.1 accepted
    obtain ⟨inputs, later⟩ := ih others
    exact ⟨i :: inputs, by rw [List.map_cons, List.map_cons, read, later]⟩

/-! ## The frames of a panel -/

def shownAfter (evaluator : Evaluator) (inputs : List Input) (count : Nat) : Text :=
  ((initial evaluator).run ((inputs.take count).map Input.operation)).readout

theorem frames_eq (evaluator : Evaluator) (inputs : List Input) :
    ((Panel.attach (initial evaluator) (⟨[]⟩ : Recording)).feedAll inputs).display.frames =
      (List.range (inputs.length + 1)).map (shownAfter evaluator inputs) := by
  rw [Panel.frames_feedAll, List.range_succ_eq_map, List.map_cons, List.map_map]
  rfl

/-! ## Lines of a trace -/

def traceLines (evaluator : Evaluator) (labels : List Text) (inputs : List Input) : List Text :=
  List.zipWith traceLine labels
    ((List.range inputs.length).map fun i => shownAfter evaluator inputs (i + 1))

section

variable {evaluator : Evaluator} {labels : List Text} {inputs : List Input}

theorem length_traceLines (same : inputs.length = labels.length) :
    (traceLines evaluator labels inputs).length = labels.length := by
  rw [traceLines, List.length_zipWith, List.length_map, List.length_range, same, Nat.min_self]

theorem getElem?_traceLines (same : inputs.length = labels.length) {i : Nat} {label : Text}
    (there : labels[i]? = some label) :
    (traceLines evaluator labels inputs)[i]? =
      some (traceLine label (shownAfter evaluator inputs (i + 1))) := by
  have bound : i < inputs.length := by
    rw [same]
    exact (List.getElem?_eq_some_iff.1 there).1
  rw [traceLines, List.getElem?_zipWith, there, List.getElem?_map, List.getElem?_range bound]
  rfl

end

theorem newline_not_mem_shownAfter {config : Config} (accepted : config.validate = .ok config)
    (marker : '\n' ∉ config.errorMarker) (inputs : List Input) (count : Nat) :
    '\n' ∉ shownAfter config.evaluator inputs count := by
  unfold shownAfter
  generalize (inputs.take count).map Input.operation = operations
  have plain := Engine.isPlain_run accepted operations
  have same : ((initial config.evaluator).run operations).evaluator = config.evaluator :=
    Engine.evaluator_run _ operations
  rcases Engine.isShown_run config.evaluator operations with ⟨_, zero | failed⟩ | ⟨_, shown⟩
  · rw [zero]
    decide
  · rw [failed, same]
    exact marker
  · rw [shown]
    intro member
    exact absurd (plain.written '\n' member) (by decide)

theorem count_newline_traceLine {label shown : Text} (within : '\n' ∉ label)
    (alone : '\n' ∉ shown) : (traceLine label shown).count '\n' = 1 := by
  have spaces : '\n' ∉ List.replicate (labelWidth - label.length) ' ' := by simp
  simp [traceLine, Text.padLeft, List.count_eq_zero.2 within, List.count_eq_zero.2 alone,
    List.count_eq_zero.2 spaces]

/-! ## What is printed -/

theorem pressed_trace (evaluator : Evaluator) (labels : List Text) (inputs : List Input) :
    pressed (initial evaluator) true labels inputs =
      (traceLines evaluator labels inputs).flatten := by
  unfold pressed traceLines
  dsimp only
  rw [if_pos rfl, frames_eq, List.range_succ_eq_map, List.map_cons, List.map_map, List.drop_one]
  rfl

theorem pressed_last (evaluator : Evaluator) (labels : List Text) (inputs : List Input) :
    pressed (initial evaluator) false labels inputs =
      shownAfter evaluator inputs inputs.length ++ ['\n'] := by
  unfold pressed Recording.current?
  dsimp only
  rw [if_neg (by decide), frames_eq, List.range_succ, List.map_append, List.map_singleton,
    List.getLast?_concat]

theorem press_of_readButtons (engine : Engine) (trace : Bool) {labels : List Text}
    {inputs : List Input} (read : readButtons labels = .ok inputs) :
    press engine trace labels = .ok (pressed engine trace labels inputs) := by
  rw [press, read]
  rfl

theorem press_of_error (engine : Engine) (trace : Bool) {labels : List Text} {e : UnknownButton}
    (unread : readButtons labels = .error e) : press engine trace labels = .error e := by
  rw [press, unread]
  rfl

/-- Where some labels are on no button, the first of them is reported and nothing is printed. Else a
trace has one line for each label, which ends with the readout that a new engine has after the
labels so far, and without a trace the readout after all of them is printed. A line has no other
line end in it, unless its label or the marker has one. -/
theorem execute_press (labels : List Text) :
    ((∃ label ∈ labels, ¬IsButton label) →
      ∃ before label after e, labels = before ++ label :: after ∧
        (∀ other ∈ before, IsButton other) ∧ Input.ofButton label = .error e ∧
        (∀ engine trace, press engine trace labels = .error e) ∧
        ∀ config trace, execute config (.press trace labels) =
          .report { exitCode := 1, output := [], errors := errorReport e.message [] }) ∧
    ((∀ label ∈ labels, IsButton label) →
      ∃ inputs : List Input, labels.map Input.ofButton = inputs.map .ok ∧ ∀ config : Config,
        (∃ lines : List Text,
          execute config (.press true labels) =
            .report { exitCode := 0, output := lines.flatten, errors := [] } ∧
          lines.length = labels.length ∧
          ∀ i label, labels[i]? = some label → ∃ line, lines[i]? = some line ∧
            line = Text.padLeft labelWidth label ++ ' ' :: ' ' ::
              shownAfter config.evaluator inputs (i + 1) ++ ['\n'] ∧
            (config.validate = .ok config → '\n' ∉ config.errorMarker → '\n' ∉ label →
              line.count '\n' = 1)) ∧
        execute config (.press false labels) = .report {
          exitCode := 0
          output := shownAfter config.evaluator inputs labels.length ++ ['\n']
          errors := [] }) := by
  constructor
  · intro refused
    obtain ⟨before, label, after, e, rfl, accepted, rejected⟩ := exists_first_rejected refused
    have unread := readButtons_of_rejected accepted rejected after
    refine ⟨before, label, after, e, rfl, accepted, rejected, ?_, ?_⟩
    · intro engine trace
      exact press_of_error engine trace unread
    · intro config trace
      rw [execute, press_of_error _ trace unread]
  · intro known
    obtain ⟨inputs, accepted⟩ := exists_inputs known
    have read := readButtons_of_accepted accepted
    have same : inputs.length = labels.length := by simpa using (congrArg List.length accepted).symm
    refine ⟨inputs, accepted, fun config => ⟨⟨traceLines config.evaluator labels inputs, ?_,
      length_traceLines same, ?_⟩, ?_⟩⟩
    · rw [execute, press_of_readButtons _ true read, pressed_trace]
    · intro i label there
      refine ⟨_, getElem?_traceLines same there, rfl, ?_⟩
      intro valid marker within
      exact count_newline_traceLine within (newline_not_mem_shownAfter valid marker inputs (i + 1))
    · rw [execute, press_of_readButtons _ false read, pressed_last, same]

theorem execute_press_product :
    let refused := ["9".toList, "cube".toList, "tan".toList, "2".toList]
    let known := ["2".toList, " * ".toList, "3".toList, "Equals".toList]
    (∃ label ∈ refused, ¬IsButton label) ∧
      (∃ before label after e, refused = before ++ label :: after ∧
        (∀ other ∈ before, IsButton other) ∧ Input.ofButton label = .error e ∧
        ∀ trace, execute {} (.press trace refused) =
          .report { exitCode := 1, output := [], errors := errorReport e.message [] }) ∧
      (∀ label ∈ known, IsButton label) ∧
      ∃ inputs : List Input, known.map Input.ofButton = inputs.map .ok ∧
        (∃ (lines : List Text) (line : Text), execute {} (.press true known) =
            .report { exitCode := 0, output := lines.flatten, errors := [] } ∧
          lines.length = 4 ∧ lines[1]? = some line ∧ line.count '\n' = 1 ∧
          line = Text.padLeft labelWidth " * ".toList ++ ' ' :: ' ' ::
            shownAfter ({} : Config).evaluator inputs 2 ++ ['\n']) ∧
        execute {} (.press false known) = .report {
          exitCode := 0
          output := shownAfter ({} : Config).evaluator inputs 4 ++ ['\n']
          errors := [] } := by
  intro refused known
  have unknown : ∃ label ∈ refused, ¬IsButton label := by decide
  have all : ∀ label ∈ known, IsButton label := by decide
  obtain ⟨before, label, after, e, split, accepted, rejected, _, reported⟩ :=
    (execute_press refused).1 unknown
  obtain ⟨inputs, read, printed⟩ := (execute_press known).2 all
  obtain ⟨⟨lines, traced, length, each⟩, last⟩ := printed {}
  obtain ⟨line, there, text, alone⟩ := each 1 " * ".toList rfl
  exact ⟨unknown, ⟨before, label, after, e, split, accepted, rejected, reported {}⟩, all,
    inputs, read,
    ⟨lines, line, traced, length, there, alone (by decide) (by decide) (by decide), text⟩, last⟩

/-- An input that does nothing has its line as well. -/
example :
    press (initial ({} : Config).evaluator) true
        ["*".toList, ".".toList, "5".toList, "()".toList, "Delete".toList] =
      .ok ("           *  0\n".toList ++ "           .  0.\n".toList ++
        "           5  0.5\n".toList ++ "          ()  0.5(\n".toList ++
        "      Delete  0.5\n".toList) := by
  decide

end CommandLine

end DeskCalculator
