import DeskCalculator.Proofs.Expression.TreeReader
/-!
How deep the parentheses nest in what has been read. A step raises the depth of a state to the
number of groups open after it, or leaves it, and the depth at the end is the depth of the tree.
-/
namespace DeskCalculator.Expression

open Expression.Tree (supply total OperandStep OperatorStep)

def leftDepth {κ : Type} : Option (Tree × κ) → Nat
  | none => 0
  | some (left, _) => left.depth

def Pending.depth (pending : Pending Tree) : Nat :=
  max (leftDepth pending.sum) (leftDepth pending.product)

def Terms.depth (terms : Terms Tree) : Nat := max (leftDepth terms.sum) terms.last.depth

def Phase.depth : Phase Tree → Nat
  | .operand pending => pending.depth
  | .number pending _ => pending.depth
  | .operator terms => terms.depth

/-- The depth of a text that ends in open groups, the innermost of which has the depth given. -/
def depthWithin : List (Pending Tree) → Nat → Nat
  | [], inner => inner
  | pending :: outer, inner => depthWithin outer (max pending.depth (inner + 1))

def Reading.depth (r : Reading Tree) : Nat := depthWithin r.enclosing r.phase.depth

theorem depthWithin_eq_max (enclosing : List (Pending Tree)) (inner : Nat) :
    depthWithin enclosing inner = max (depthWithin enclosing 0) (enclosing.length + inner) := by
  induction enclosing generalizing inner with
  | nil => simp [depthWithin]
  | cons pending outer ih =>
    rw [depthWithin, depthWithin, ih (max pending.depth (inner + 1)),
      ih (max pending.depth (0 + 1)), List.length_cons]
    omega

theorem length_le_depthWithin (enclosing : List (Pending Tree)) (inner : Nat) :
    enclosing.length ≤ depthWithin enclosing inner := by
  have bound := depthWithin_eq_max enclosing inner
  omega

theorem Reading.length_le_depth (r : Reading Tree) : r.enclosing.length ≤ r.depth :=
  length_le_depthWithin r.enclosing r.phase.depth

theorem Tree.depth_toggle (e : Tree) : e.toggle.depth = e.depth := by
  cases e <;> rfl

theorem depth_supply (pending : Pending Tree) (e : Tree) :
    (supply pending e).depth = max pending.depth e.depth := by
  have signed : (if pending.negative then e.toggle else e).depth = e.depth := by
    split
    · exact e.depth_toggle
    · rfl
  unfold supply
  generalize (if pending.negative then e.toggle else e) = operand at signed
  obtain ⟨sum, factors, negative⟩ := pending
  rcases factors with _ | ⟨left, kind⟩
  · simp [Terms.depth, Pending.depth, leftDepth, signed]
  · cases kind <;> simp [Terms.depth, Pending.depth, leftDepth, Tree.depth, signed, Nat.max_assoc]

theorem depth_total (terms : Terms Tree) : (total terms).depth = terms.depth := by
  obtain ⟨sum, last⟩ := terms
  rcases sum with _ | ⟨left, kind⟩
  · simp [total, Terms.depth, leftDepth]
  · cases kind <;> rfl

theorem Tree.OperatorStep.depth {enclosing : List (Pending Tree)} {terms : Terms Tree} {c : Char}
    {next : Reading Tree} (moved : OperatorStep enclosing terms c next) :
    next.depth = depthWithin enclosing terms.depth := by
  cases moved with
  | blank => rfl
  | plus | minus =>
    simp only [Reading.depth, Phase.depth, Pending.depth, leftDepth, depth_total, Nat.max_zero]
  | times | dividedBy => rfl
  | closeGroup =>
    simp only [Reading.depth, Phase.depth, depth_supply, Tree.depth, depth_total, depthWithin]

theorem Tree.OperandStep.depth {enclosing : List (Pending Tree)} {pending : Pending Tree} {c : Char}
    {next : Reading Tree} (moved : OperandStep enclosing pending c next) :
    next.depth = max (depthWithin enclosing pending.depth) next.enclosing.length := by
  have bound := length_le_depthWithin enclosing pending.depth
  cases moved with
  | skip | minus | number => exact (Nat.max_eq_left bound).symm
  | openGroup =>
    have inner := depthWithin_eq_max enclosing (max pending.depth (0 + 1))
    have outer := depthWithin_eq_max enclosing pending.depth
    simp only [Reading.depth, Phase.depth, depthWithin, Pending.depth, leftDepth, Pending.empty,
      Nat.max_self, List.length_cons] at inner outer ⊢
    omega

theorem depth_supplyNumber {pending : Pending Tree} {literal : Text} {terms : Terms Tree}
    (supplied : Tree.supplyNumber pending literal = some terms) : terms.depth = pending.depth := by
  simp only [Tree.supplyNumber] at supplied
  split at supplied
  next => cases supplied; simp [depth_supply, Tree.depth]
  next => cases supplied

theorem Reading.depth_step {r next : Reading Tree} {c : Char} (moved : Tree.step r c = some next) :
    next.depth = max r.depth next.enclosing.length := by
  have bound := next.length_le_depth
  obtain ⟨enclosing, phase⟩ := r
  cases phase with
  | operand pending => exact (OperandStep.of_eq moved).depth
  | operator terms =>
    have depth := (OperatorStep.of_eq moved).depth
    simp only [Reading.depth, Phase.depth] at depth bound ⊢
    omega
  | number pending literal =>
    simp only [Tree.step] at moved
    split at moved
    next =>
      cases moved
      exact (Nat.max_eq_left (length_le_depthWithin enclosing pending.depth)).symm
    next =>
      obtain ⟨terms, supplied, moved⟩ := Option.bind_eq_some_iff.1 moved
      have depth := (OperatorStep.of_eq moved).depth
      rw [depth_supplyNumber supplied] at depth
      simp only [Reading.depth, Phase.depth] at depth bound ⊢
      omega

theorem depth_close {enclosing : List (Pending Tree)} {terms : Terms Tree} {e : Tree}
    (closed : Tree.close enclosing terms = some e) :
    e.depth = depthWithin enclosing terms.depth := by
  cases enclosing with
  | nil =>
    cases closed
    exact depth_total terms
  | cons => cases closed

theorem Reading.depth_finish {r : Reading Tree} {e : Tree} (ended : Tree.finish r = some e) :
    e.depth = r.depth := by
  obtain ⟨enclosing, phase⟩ := r
  cases phase with
  | operand => cases ended
  | operator => exact depth_close ended
  | number =>
    obtain ⟨terms, supplied, ended⟩ := Option.bind_eq_some_iff.1 ended
    rw [depth_close ended, depth_supplyNumber supplied]
    rfl

end DeskCalculator.Expression
