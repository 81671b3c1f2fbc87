import DeskCalculator.Proofs.Expression.Depth
import DeskCalculator.Proofs.Expression.ReadText
/-!
What the reader computes, over any arithmetic. It keeps the values of the trees that the reader of
trees keeps, as long as no more groups are open than allowed; so a text has the value of its tree
when it has one that is not too deep, and no value elsewhere.
-/
namespace DeskCalculator.Expression

open Expression.Tree (supply total readFrom OperandStep OperatorStep)

variable {α : Type} (arith : Arithmetic α)

/-! ## The values of a state -/

def evaluateLeft {κ : Type} : Option (Tree × κ) → Except ExpressionError (Option (α × κ))
  | none => .ok none
  | some (left, kind) => do .ok (some (← left.value arith, kind))

def Pending.evaluate (pending : Pending Tree) : Except ExpressionError (Pending α) := do
  .ok ⟨← evaluateLeft arith pending.sum, ← evaluateLeft arith pending.product, pending.negative⟩

def Terms.evaluate (terms : Terms Tree) : Except ExpressionError (Terms α) := do
  .ok ⟨← evaluateLeft arith terms.sum, ← terms.last.value arith⟩

def Phase.evaluate : Phase Tree → Except ExpressionError (Phase α)
  | .operand pending => do .ok (.operand (← pending.evaluate arith))
  | .number pending literal => do .ok (.number (← pending.evaluate arith) literal)
  | .operator terms => do .ok (.operator (← terms.evaluate arith))

/-- The values before the innermost open parenthesis; what was read first is evaluated first. -/
def evaluateEnclosing : List (Pending Tree) → Except ExpressionError (List (Pending α))
  | [] => .ok []
  | pending :: outer => do
    let enclosing ← evaluateEnclosing outer
    .ok ((← pending.evaluate arith) :: enclosing)

def Reading.evaluate (r : Reading Tree) : Except ExpressionError (Reading α) := do
  .ok ⟨← evaluateEnclosing arith r.enclosing, ← r.phase.evaluate arith⟩

theorem evaluate_start : Reading.evaluate arith .start = .ok .start := rfl

theorem bind_eq_ok {ε β γ : Type} {x : Except ε β} {f : β → Except ε γ} {c : γ} :
    (x >>= f) = .ok c ↔ ∃ b, x = .ok b ∧ f b = .ok c := by
  cases x <;> simp [bind, Except.bind]

theorem Reading.evaluate_eq_ok {enclosing : List (Pending Tree)} {phase : Phase Tree}
    {values : Reading α} (evaluated : Reading.evaluate arith ⟨enclosing, phase⟩ = .ok values) :
    ∃ before current, evaluateEnclosing arith enclosing = .ok before ∧
      phase.evaluate arith = .ok current ∧ values = ⟨before, current⟩ := by
  obtain ⟨before, earlier, evaluated⟩ := bind_eq_ok.1 evaluated
  obtain ⟨current, inside, evaluated⟩ := bind_eq_ok.1 evaluated
  cases evaluated
  exact ⟨before, current, earlier, inside, rfl⟩

theorem length_evaluateEnclosing {enclosing : List (Pending Tree)} {values : List (Pending α)}
    (evaluated : evaluateEnclosing arith enclosing = .ok values) :
    values.length = enclosing.length := by
  induction enclosing generalizing values with
  | nil =>
    cases evaluated
    rfl
  | cons pending outer ih =>
    obtain ⟨before, earlier, evaluated⟩ := bind_eq_ok.1 evaluated
    obtain ⟨waiting, _, evaluated⟩ := bind_eq_ok.1 evaluated
    cases evaluated
    rw [List.length_cons, List.length_cons, ih earlier]

theorem evaluateLeft_some {κ : Type} (left : Tree) (kind : κ) :
    evaluateLeft arith (some (left, kind)) =
      (left.value arith >>= fun value => .ok (some (value, kind))) := rfl

theorem evaluate_supply (pending : Pending Tree) {e : Tree} (primary : e.toggle = .negative e) :
    (supply pending e).evaluate arith =
      (pending.evaluate arith >>= fun waiting => e.value arith >>= waiting.supply arith) := by
  obtain ⟨sum, factors, negative⟩ := pending
  have signed : (if negative then e.toggle else e).value arith =
      (e.value arith >>= fun value => .ok (if negative then arith.neg value else value)) := by
    rw [primary]
    cases negative
    · simp only [Bool.false_eq_true, if_false]
      cases e.value arith <;> rfl
    · rfl
  simp only [supply, Pending.evaluate]
  generalize (if negative then e.toggle else e) = operand at signed
  rcases factors with _ | ⟨left, kind⟩
  · simp only [Terms.evaluate, signed]
    cases evaluateLeft arith sum <;> cases e.value arith <;> rfl
  cases kind with
  | times =>
    simp only [Terms.evaluate, Tree.value, signed, evaluateLeft_some]
    cases evaluateLeft arith sum <;> cases left.value arith <;> cases e.value arith <;> rfl
  | dividedBy =>
    simp only [Terms.evaluate, Tree.value, signed, evaluateLeft_some]
    cases evaluateLeft arith sum with
    | error => rfl
    | ok before =>
      cases left.value arith with
      | error => rfl
      | ok dividend =>
        cases e.value arith with
        | error => rfl
        | ok divisor =>
          -- Only here can an operation itself fail.
          simp only [Tree.combine, Pending.supply, bind, Except.bind]
          by_cases zero : arith.isZero (if negative then arith.neg divisor else divisor) = true
          · simp only [if_pos zero]
          · simp only [if_neg zero]

theorem value_total (terms : Terms Tree) :
    (total terms).value arith =
      (terms.evaluate arith >>= fun values => .ok (values.total arith)) := by
  obtain ⟨sum, last⟩ := terms
  rcases sum with _ | ⟨left, kind⟩
  · simp only [total, Terms.evaluate, evaluateLeft]
    cases last.value arith <;> rfl
  · simp only [Terms.evaluate, evaluateLeft_some]
    cases kind <;> simp only [total, Tree.value] <;>
      cases left.value arith <;> cases last.value arith <;> rfl

/-! ## One step -/

theorem Tree.OperatorStep.evaluate {enclosing : List (Pending Tree)} {terms : Terms Tree} {c : Char}
    {next : Reading Tree} (moved : OperatorStep enclosing terms c next) (offset : Nat) :
    next.evaluate arith =
      (evaluateEnclosing arith enclosing >>= fun before => terms.evaluate arith >>= fun values =>
        Reading.operatorStep arith before values offset c) := by
  cases moved with
  | blank =>
    simp only [Reading.evaluate, Phase.evaluate]
    cases evaluateEnclosing arith enclosing <;> cases terms.evaluate arith <;> rfl
  | plus | minus =>
    simp only [Reading.evaluate, Phase.evaluate, Pending.evaluate, evaluateLeft_some, value_total]
    cases evaluateEnclosing arith enclosing <;> cases terms.evaluate arith <;> rfl
  | times | dividedBy =>
    simp only [Reading.evaluate, Phase.evaluate, Pending.evaluate, evaluateLeft_some,
      Terms.evaluate]
    cases evaluateEnclosing arith enclosing <;> cases evaluateLeft arith terms.sum <;>
      cases terms.last.value arith <;> rfl
  | @closeGroup pending outer =>
    simp only [Reading.evaluate, Phase.evaluate, evaluateEnclosing]
    rw [evaluate_supply arith pending rfl, Tree.value, value_total]
    cases evaluateEnclosing arith outer with
    | error => rfl
    | ok before =>
      cases pending.evaluate arith with
      | error => rfl
      | ok waiting =>
        cases terms.evaluate arith with
        | error => rfl
        | ok values =>
          have closing : Reading.operatorStep arith (waiting :: before) values offset ')' =
              (waiting.supply arith (values.total arith) >>= fun closed =>
                .ok ⟨before, .operator closed⟩) := rfl
          simp only [bind, Except.bind] at closing ⊢
          rw [closing]
          cases waiting.supply arith (values.total arith) <;> rfl

theorem Tree.OperandStep.evaluate {enclosing : List (Pending Tree)} {pending : Pending Tree}
    {c : Char} {next : Reading Tree} (moved : OperandStep enclosing pending c next)
    (room : next.enclosing.length ≤ maxDepth) (offset : Nat) :
    next.evaluate arith =
      (evaluateEnclosing arith enclosing >>= fun before => pending.evaluate arith >>=
        fun waiting => Reading.operandStep before waiting offset c) := by
  cases moved with
  | skip skipped =>
    simp only [Reading.evaluate, Phase.evaluate, Reading.operandStep, if_pos skipped]
    cases evaluateEnclosing arith enclosing <;> cases pending.evaluate arith <;> rfl
  | minus =>
    simp only [Reading.evaluate, Phase.evaluate, Pending.evaluate]
    cases evaluateEnclosing arith enclosing <;> cases evaluateLeft arith pending.sum <;>
      cases evaluateLeft arith pending.product <;> rfl
  | openGroup =>
    cases before : evaluateEnclosing arith enclosing with
    | error => simp only [Reading.evaluate, evaluateEnclosing, before]; rfl
    | ok values =>
      have space : values.length < maxDepth := by
        rw [length_evaluateEnclosing arith before]
        exact room
      have opened (waiting : Pending α) : Reading.operandStep values waiting offset '(' =
          .ok ⟨waiting :: values, .operand .empty⟩ := if_pos space
      simp only [Reading.evaluate, evaluateEnclosing, before]
      cases pending.evaluate arith with
      | error => rfl
      | ok waiting => exact (opened waiting).symm
  | number starts =>
    have signless : ¬(c = ' ' ∨ c = '+') ∧ c ≠ '-' ∧ c ≠ '(' := signless_of_numeric starts
    simp only [Reading.evaluate, Phase.evaluate, Reading.operandStep, if_neg signless.1,
      if_neg signless.2.1, if_neg signless.2.2, if_pos starts]
    cases evaluateEnclosing arith enclosing <;> cases pending.evaluate arith <;> rfl

theorem evaluate_supplyNumber {pending : Pending Tree} {literal : Text} {terms : Terms Tree}
    (supplied : Tree.supplyNumber pending literal = some terms) :
    terms.evaluate arith =
      (pending.evaluate arith >>= fun waiting => waiting.supplyNumber arith literal) := by
  simp only [Tree.supplyNumber] at supplied
  split at supplied
  next =>
    cases supplied
    exact evaluate_supply arith pending rfl
  next => cases supplied

/-- The reader computes the values of the next state, as long as a parenthesis may be opened. -/
theorem Reading.evaluate_step {r next : Reading Tree} {c : Char}
    (moved : Tree.step r c = some next) (room : next.enclosing.length ≤ maxDepth) (offset : Nat) :
    next.evaluate arith = (r.evaluate arith >>= fun values => values.step arith offset c) := by
  obtain ⟨enclosing, phase⟩ := r
  cases phase with
  | operand pending =>
    rw [(OperandStep.of_eq moved).evaluate arith room offset]
    simp only [Reading.evaluate, Phase.evaluate]
    cases evaluateEnclosing arith enclosing <;> cases pending.evaluate arith <;> rfl
  | operator terms =>
    rw [(OperatorStep.of_eq moved).evaluate arith offset]
    simp only [Reading.evaluate, Phase.evaluate]
    cases evaluateEnclosing arith enclosing <;> cases terms.evaluate arith <;> rfl
  | number pending literal =>
    simp only [Tree.step] at moved
    split at moved
    next goes =>
      cases moved
      simp only [Reading.evaluate, Phase.evaluate]
      cases evaluateEnclosing arith enclosing <;> cases pending.evaluate arith <;>
        simp [bind, Except.bind, Reading.step, goes]
    next ends =>
      obtain ⟨terms, supplied, moved⟩ := Option.bind_eq_some_iff.1 moved
      rw [(OperatorStep.of_eq moved).evaluate arith offset, evaluate_supplyNumber arith supplied]
      simp only [Reading.evaluate, Phase.evaluate]
      cases evaluateEnclosing arith enclosing <;> cases pending.evaluate arith <;>
        simp [bind, Except.bind, Reading.step, ends]

end DeskCalculator.Expression
