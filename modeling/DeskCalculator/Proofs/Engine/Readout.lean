import DeskCalculator.Proofs.Engine.History
import DeskCalculator.Proofs.Engine.Plain
/-!
What the readout tells of a run, and where the marker goes. A failure stays on the readout until
something is written or all is cleared, and nothing changes until then. The marker goes to the
readout only: two runs that differ in it agree in all the rest.
-/
namespace DeskCalculator

namespace Engine

/-! ## After a failure -/

def Recovers (e : Engine) (op : Operation) : Prop :=
  op = .clear ∨ (e.apply op).expression ≠ []

theorem not_fails_of_empty {e : Engine} (empty : e.expression = []) (op : Operation) :
    ¬e.Fails op := by
  have noValue : e.value? = none := if_pos empty
  intro fails
  cases op with
  | squareRoot | square =>
    obtain ⟨v, value, _⟩ := fails
    rw [noValue] at value
    cases value
  | equals => exact fails.1 empty
  | _ => exact fails

theorem apply_of_empty {e : Engine} {op : Operation} (empty : e.expression = [])
    (stays : ¬e.Recovers op) : e.apply op = e := by
  obtain ⟨other, written⟩ := not_or.1 stays
  have still := not_not.1 written
  have change := e.change_apply op
  generalize e.apply op = e' at change still
  cases change with
  | none => rfl
  | digit | point | leadingPoint => exact absurd still (by simp [grown, shown])
  | sign | append => exact absurd still (by simp [operated, shown])
  | replace split =>
    rw [empty] at split
    exact absurd split (by simp)
  | negate found =>
    rw [empty] at found
    cases found
  | delete split =>
    rw [empty] at split
    exact absurd split (by simp)
  | clear => exact absurd rfl other
  | openGroup => exact absurd still (List.concat_ne_nil '(' e.expression)
  | closeGroup => exact absurd still (List.concat_ne_nil ')' e.expression)
  | percent found =>
    rw [empty] at found
    cases found
  | root value | square value =>
    have noValue : e.value? = none := if_pos empty
    rw [noValue] at value
    cases value
  | result nonempty => exact absurd empty nonempty
  | fail fails => exact absurd fails (not_fails_of_empty empty op)

theorem run_of_lasts {e : Engine} {earlier later : List Operation} {op : Operation}
    (lasts : Lasts Fails Recovers e earlier op later) :
    e.run (earlier ++ op :: later) = (e.run earlier).failed := by
  induction later using List.reverseRecOn with
  | nil =>
    rw [run_append_singleton]
    exact apply_of_fails (lasts_nil.1 lasts)
  | append_singleton later next ih =>
    obtain ⟨before, stays⟩ := lasts_append_singleton.1 lasts
    rw [ih before] at stays
    calc e.run (earlier ++ op :: (later ++ [next]))
        = (e.run (earlier ++ op :: later)).apply next := by
          rw [← run_append_singleton, List.append_assoc, List.cons_append]
      _ = (e.run earlier).failed.apply next := by rw [ih before]
      _ = (e.run earlier).failed := apply_of_empty rfl stays

theorem readout_of_lasts {evaluator : Evaluator} {earlier later : List Operation} {op : Operation}
    (lasts : Lasts Fails Recovers (initial evaluator) earlier op later) :
    ((initial evaluator).run (earlier ++ op :: later)).expression = [] ∧
      ((initial evaluator).run (earlier ++ op :: later)).readout = evaluator.errorMarker := by
  rw [run_of_lasts lasts]
  exact ⟨rfl, congrArg Evaluator.errorMarker (evaluator_run (initial evaluator) earlier)⟩

/-! ## Without a failure -/

def IsCurrent (e : Engine) : Prop :=
  e.readout = if e.expression = [] then ['0'] else e.expression

theorem apply_eq_or_isCurrent {e : Engine} {op : Operation} (goes : ¬e.Fails op) :
    e.apply op = e ∨ (e.apply op).IsCurrent := by
  have change := e.change_apply op
  generalize e.apply op = e' at change
  cases change with
  | none => exact .inl rfl
  | fail fails => exact absurd fails goes
  | _ => exact .inr rfl

theorem isCurrent_of_recovers {e : Engine} {op : Operation} (current : e.IsShown)
    (recovers : e.Recovers op) : (e.apply op).IsCurrent := by
  rcases recovers with rfl | written
  · exact rfl
  · rcases current.apply op with ⟨empty, _⟩ | ⟨_, same⟩
    · exact absurd empty written
    · rw [IsCurrent, if_neg written, same]

theorem isCurrent_run (evaluator : Evaluator) {operations : List Operation}
    (fine : ¬Since Fails Recovers (initial evaluator) operations) :
    ((initial evaluator).run operations).IsCurrent := by
  induction operations using List.reverseRecOn with
  | nil => rfl
  | append_singleton operations op ih =>
    rw [since_append_singleton, not_or] at fine
    obtain ⟨goes, fine⟩ := fine
    rw [run_append_singleton]
    by_cases recovers : ((initial evaluator).run operations).Recovers op
    · exact isCurrent_of_recovers (isShown_run evaluator operations) recovers
    · have before := ih (fun since => fine ⟨since, recovers⟩)
      rcases apply_eq_or_isCurrent goes with same | current
      · rw [same]
        exact before
      · exact current

/-- The readout is the expression, and without one a zero or the marker. It is the marker from a
failure on to the first operation that clears or writes something, and all operations between leave
the engine as it is; at all other times it is no failure's. -/
theorem readout_run_since (evaluator : Evaluator) (operations : List Operation) :
    let e := (initial evaluator).run operations
    (e.expression ≠ [] → e.readout = e.expression) ∧
      (e.expression = [] → e.readout = ['0'] ∨ e.readout = evaluator.errorMarker) ∧
      (∀ earlier op later, operations = earlier ++ op :: later →
        Lasts Fails Recovers (initial evaluator) earlier op later →
          e = (initial evaluator).run (earlier ++ [op]) ∧ e.expression = [] ∧
            e.readout = evaluator.errorMarker) ∧
      (¬Since Fails Recovers (initial evaluator) operations →
        e.readout = if e.expression = [] then ['0'] else e.expression) := by
  intro e
  have marker : e.evaluator.errorMarker = evaluator.errorMarker :=
    congrArg Evaluator.errorMarker (evaluator_run (initial evaluator) operations)
  have current : e.IsShown := isShown_run evaluator operations
  rw [IsShown, marker] at current
  refine ⟨?_, ?_, ?_, isCurrent_run evaluator⟩
  · intro written
    exact (current.resolve_left (fun shown => written shown.1)).2
  · intro empty
    exact (current.resolve_right (fun shown => shown.1 empty)).2
  · intro earlier op later split lasts
    have first := run_of_lasts (lasts_nil.2 lasts.1)
    have shown := readout_of_lasts lasts
    rw [← split] at shown
    refine ⟨?_, shown⟩
    calc e = (initial evaluator).run (earlier ++ op :: later) := by rw [← split]
      _ = ((initial evaluator).run earlier).failed := run_of_lasts lasts
      _ = (initial evaluator).run (earlier ++ [op]) := first.symm

/-! ## The marker -/

def unmarked (e : Engine) : Engine :=
  { e with evaluator := { e.evaluator with errorMarker := [] }, readout := [] }

section Unmarked

variable (e : Engine)

theorem expression_unmarked : e.unmarked.expression = e.expression := rfl

theorem value?_unmarked : e.unmarked.value? = e.value? := rfl

theorem valueOf_unmarked : e.unmarked.evaluator.valueOf e.unmarked.closed =
    e.evaluator.valueOf e.closed := rfl

theorem resumed_unmarked : e.unmarked.resumed = e.resumed.unmarked := by
  unfold resumed
  rw [apply_ite unmarked]
  rfl

theorem typeDigit_unmarked (c : Char) :
    (e.unmarked.typeDigit c).unmarked = (e.typeDigit c).unmarked := by
  by_cases typed : (c.isDigit || c == '.') = true
  · rw [typeDigit_eq e typed, typeDigit_eq e.unmarked typed, resumed_unmarked,
      apply_ite unmarked, apply_ite unmarked]
    rfl
  · unfold typeDigit
    rw [if_neg typed, if_neg typed]
    rfl

theorem typeOperator_unmarked (op : Operator) :
    (e.unmarked.typeOperator op).unmarked = (e.typeOperator op).unmarked := by
  have same : e.unmarked.withOperator? op = e.withOperator? op := rfl
  unfold typeOperator
  rw [same]
  cases e.withOperator? op <;> rfl

theorem negate_unmarked : e.unmarked.negate.unmarked = e.negate.unmarked := by
  unfold negate
  rw [expression_unmarked]
  cases LastNumber.find? e.expression <;> rfl

theorem deleteLast_unmarked : e.unmarked.deleteLast.unmarked = e.deleteLast.unmarked := by
  unfold deleteLast
  rw [apply_ite unmarked, apply_ite unmarked]
  rfl

theorem parenthesis_unmarked : e.unmarked.parenthesis.unmarked = e.parenthesis.unmarked := by
  unfold parenthesis
  rw [apply_ite unmarked, apply_ite unmarked]
  rfl

theorem percent_unmarked : e.unmarked.percent.unmarked = e.percent.unmarked := by
  unfold percent
  rw [expression_unmarked]
  cases LastNumber.atEnd? e.expression with
  | none => rfl
  | some n =>
    dsimp only
    cases Decimal.ofText? n.digits with
    | none => rfl
    | some d =>
      dsimp only
      rw [apply_ite unmarked, apply_ite unmarked]
      rfl

theorem squareRoot_unmarked : e.unmarked.squareRoot.unmarked = e.squareRoot.unmarked := by
  unfold squareRoot
  rw [value?_unmarked]
  cases e.value? with
  | none => rfl
  | some v =>
    dsimp only
    rw [apply_ite unmarked, apply_ite unmarked]
    rfl

theorem square_unmarked : e.unmarked.square.unmarked = e.square.unmarked := by
  unfold square
  rw [value?_unmarked]
  cases e.value? with
  | none => rfl
  | some v =>
    dsimp only
    rw [apply_ite unmarked, apply_ite unmarked]
    rfl

theorem equals_unmarked : e.unmarked.equals.unmarked = e.equals.unmarked := by
  unfold equals Evaluator.outcome
  rw [valueOf_unmarked, apply_ite unmarked, apply_ite unmarked]
  cases e.evaluator.valueOf e.closed <;> rfl

theorem apply_unmarked (op : Operation) :
    (e.unmarked.apply op).unmarked = (e.apply op).unmarked := by
  cases op with
  | digit c => exact e.typeDigit_unmarked c
  | operator op => exact e.typeOperator_unmarked op
  | negate => exact e.negate_unmarked
  | deleteLast => exact e.deleteLast_unmarked
  | parenthesis => exact e.parenthesis_unmarked
  | percent => exact e.percent_unmarked
  | squareRoot => exact e.squareRoot_unmarked
  | square => exact e.square_unmarked
  | equals => exact e.equals_unmarked
  | clear | openGroup | closeGroup => rfl

theorem fails_unmarked (op : Operation) : e.unmarked.Fails op ↔ e.Fails op := by
  cases op <;> exact Iff.rfl

end Unmarked

def Agree (a b : Engine) : Prop := a.unmarked = b.unmarked

section Agree

variable {a b : Engine}

theorem Agree.apply (agree : Agree a b) (op : Operation) : Agree (a.apply op) (b.apply op) := by
  unfold Agree at agree ⊢
  rw [← apply_unmarked, agree, apply_unmarked]

theorem Agree.run (agree : Agree a b) (operations : List Operation) :
    Agree (a.run operations) (b.run operations) := by
  induction operations generalizing a b with
  | nil => exact agree
  | cons op operations ih => exact ih (agree.apply op)

theorem Agree.fields (agree : Agree a b) :
    a.expression = b.expression ∧ a.openGroups = b.openGroups ∧ a.operandDue = b.operandDue ∧
      a.latest = b.latest := by
  have same : a.unmarked = b.unmarked := agree
  have expression := congrArg Engine.expression same
  have groups := congrArg Engine.openGroups same
  have due := congrArg Engine.operandDue same
  have latest := congrArg Engine.latest same
  exact ⟨expression, groups, due, latest⟩

theorem Agree.fails_iff (agree : Agree a b) (op : Operation) : a.Fails op ↔ b.Fails op := by
  rw [← fails_unmarked, agree, fails_unmarked]

theorem Agree.recovers_iff (agree : Agree a b) (op : Operation) :
    a.Recovers op ↔ b.Recovers op := by
  unfold Recovers
  rw [(agree.apply op).fields.1]

theorem Agree.lasts_iff (agree : Agree a b) (earlier : List Operation) (op : Operation)
    (later : List Operation) :
    Lasts Fails Recovers a earlier op later ↔ Lasts Fails Recovers b earlier op later := by
  apply and_congr ((agree.run earlier).fails_iff op)
  apply forall₄_congr
  intro between next rest _
  exact not_congr ((agree.run (earlier ++ op :: between)).recovers_iff next)

theorem Agree.since_iff (agree : Agree a b) (operations : List Operation) :
    Since Fails Recovers a operations ↔ Since Fails Recovers b operations := by
  apply exists₃_congr
  intro earlier op later
  rw [agree.lasts_iff]

end Agree

/-- Two runs of the same operations whose markers differ have at every step the same expression,
the same that is kept beside it, and the same readout, unless both show their own marker without an
expression. -/
theorem run_of_markers (first second : Text) (places : UInt32) (operations : List Operation) :
    let a := (initial ⟨first, places⟩).run operations
    let b := (initial ⟨second, places⟩).run operations
    a.expression = b.expression ∧ a.openGroups = b.openGroups ∧ a.operandDue = b.operandDue ∧
      a.latest = b.latest ∧
      (a.readout = b.readout ∨
        a.expression = [] ∧ b.expression = [] ∧ a.readout = first ∧ b.readout = second) := by
  intro a b
  have start : Agree (initial ⟨first, places⟩) (initial ⟨second, places⟩) := rfl
  have agree : Agree a b := start.run operations
  obtain ⟨expression, groups, due, latest⟩ := agree.fields
  refine ⟨expression, groups, due, latest, ?_⟩
  by_cases since : Since Fails Recovers (initial ⟨first, places⟩) operations
  · obtain ⟨earlier, op, later, split, lasts⟩ := since
    obtain ⟨empty, shown⟩ := readout_of_lasts lasts
    obtain ⟨empty', shown'⟩ := readout_of_lasts ((start.lasts_iff earlier op later).1 lasts)
    rw [← split] at empty shown empty' shown'
    exact .inr ⟨empty, empty', shown, shown'⟩
  · have left : a.IsCurrent := isCurrent_run _ since
    have right : b.IsCurrent := isCurrent_run _ (fun other => since ((start.since_iff _).2 other))
    rw [IsCurrent, expression] at left
    exact .inl (left.trans right.symm)

end Engine

end DeskCalculator
