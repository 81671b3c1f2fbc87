import DeskCalculator.Proofs.Binary64.Negation
import DeskCalculator.Expression.Normal
import DeskCalculator.Expression.Reader
/-!
Doubled signs may collapse: a text comes to the same value, or to the same error, before and after.
After an operand the first sign is the operation and the others belong to the next operand, so a
pair of signs and the sign in its stead lead the reader to states that tell the two apart. What they
have in common is found by moving the minus sign of a subtraction to the term after it.
-/
namespace DeskCalculator

def ExpressionError.unplaced : ExpressionError → ExpressionError
  | .unexpectedChar found _ => .unexpectedChar found 0
  | .trailingInput _ => .trailingInput 0
  | error => error

/-- What collapsing signs asks of an arithmetic: to subtract is to add the negative, a negative
taken twice is the number itself, and the sign of the first factor or of a dividend is one of the
result. -/
structure Arithmetic.HasSignLaws {α : Type} (arith : Arithmetic α) : Prop where
  sub_eq : ∀ x y, arith.sub x y = arith.add x (arith.neg y)
  neg_neg : ∀ x, arith.neg (arith.neg x) = x
  neg_mul : ∀ x y, arith.mul (arith.neg x) y = arith.neg (arith.mul x y)
  neg_div : ∀ x y, arith.div (arith.neg x) y = arith.neg (arith.div x y)

theorem Binary64.hasSignLaws : Binary64.arithmetic.HasSignLaws where
  sub_eq _ _ := rfl
  neg_neg := Binary64.neg_neg
  neg_mul := Binary64.neg_mul
  neg_div := Binary64.neg_div

namespace Expression

variable {α : Type} (arith : Arithmetic α)

/-! ## Reading without places -/

def Reading.meaning (r : Reading α) (t : Text) : Except ExpressionError α :=
  (r.run arith 0 t).mapError ExpressionError.unplaced

theorem mapError_bind {β γ : Type} (f : ExpressionError → ExpressionError)
    (x : Except ExpressionError β) (next : β → Except ExpressionError γ) :
    (x >>= next).mapError f = (x.mapError f >>= fun b => (next b).mapError f) := by
  cases x <;> rfl

theorem operandStep_unplaced (enclosing : List (Pending α)) (pending : Pending α)
    (offset : Nat) (c : Char) :
    (Reading.operandStep enclosing pending offset c).mapError ExpressionError.unplaced =
      (Reading.operandStep enclosing pending 0 c).mapError ExpressionError.unplaced := by
  unfold Reading.operandStep
  repeat' split
  all_goals rfl

theorem operatorStep_unplaced (enclosing : List (Pending α)) (terms : Terms α)
    (offset : Nat) (c : Char) :
    (Reading.operatorStep arith enclosing terms offset c).mapError ExpressionError.unplaced =
      (Reading.operatorStep arith enclosing terms 0 c).mapError ExpressionError.unplaced := by
  unfold Reading.operatorStep
  repeat' split
  all_goals rfl

theorem Reading.step_unplaced (r : Reading α) (offset : Nat) (c : Char) :
    (r.step arith offset c).mapError ExpressionError.unplaced =
      (r.step arith 0 c).mapError ExpressionError.unplaced := by
  obtain ⟨enclosing, phase⟩ := r
  cases phase with
  | operand pending => exact operandStep_unplaced enclosing pending offset c
  | operator terms => exact operatorStep_unplaced arith enclosing terms offset c
  | number pending literal =>
    simp only [Reading.step]
    split
    · rfl
    · simp only [mapError_bind, operatorStep_unplaced arith _ _ offset]

theorem Reading.run_unplaced (r : Reading α) (offset : Nat) (t : Text) :
    (r.run arith offset t).mapError ExpressionError.unplaced = r.meaning arith t := by
  unfold Reading.meaning
  induction t generalizing r offset with
  | nil => rfl
  | cons c t ih =>
    simp only [Reading.run, mapError_bind]
    rw [r.step_unplaced arith offset]
    congr 1
    funext next
    rw [ih next (offset + 1), ih next (0 + 1)]

theorem Reading.meaning_cons (r : Reading α) (c : Char) (t : Text) :
    r.meaning arith (c :: t) =
      ((r.step arith 0 c).mapError ExpressionError.unplaced >>= fun next =>
        next.meaning arith t) := by
  unfold Reading.meaning
  simp only [Reading.run, mapError_bind]
  congr 1
  funext next
  exact next.run_unplaced arith (0 + 1) t

/-! ## A minus sign before the last term -/

def signed (negative : Bool) (value : α) : α := if negative then arith.neg value else value

def Terms.absorbed : Terms α → Terms α
  | ⟨some (left, .minus), last⟩ => ⟨some (left, .plus), arith.neg last⟩
  | terms => terms

def Pending.absorbed : Pending α → Pending α
  | ⟨some (left, .minus), none, negative⟩ => ⟨some (left, .plus), none, !negative⟩
  | ⟨some (left, .minus), some (factor, kind), negative⟩ =>
    ⟨some (left, .plus), some (arith.neg factor, kind), negative⟩
  | pending => pending

def Phase.absorbed : Phase α → Phase α
  | .operand pending => .operand (pending.absorbed arith)
  | .number pending literal => .number (pending.absorbed arith) literal
  | .operator terms => .operator (terms.absorbed arith)

def Reading.absorbed (r : Reading α) : Reading α :=
  ⟨r.enclosing.map (Pending.absorbed arith), r.phase.absorbed arith⟩

variable {arith}

theorem supply_dividedBy (sum : Option (α × Additive)) (left : α) (negative : Bool) (value : α) :
    (⟨sum, some (left, .dividedBy), negative⟩ : Pending α).supply arith value =
      if arith.isZero (signed arith negative value) then .error .divisionByZero
      else .ok ⟨sum, arith.div left (signed arith negative value)⟩ := rfl

theorem total_absorbed (laws : arith.HasSignLaws) (terms : Terms α) :
    (terms.absorbed arith).total arith = terms.total arith := by
  obtain ⟨sum, last⟩ := terms
  rcases sum with _ | ⟨left, _ | _⟩
  · rfl
  · rfl
  · exact (laws.sub_eq left last).symm

theorem supply_absorbed (laws : arith.HasSignLaws) (pending : Pending α) (value : α) :
    (pending.absorbed arith).supply arith value =
      (pending.supply arith value).map (Terms.absorbed arith) := by
  obtain ⟨sum, product, negative⟩ := pending
  rcases sum with _ | ⟨left, plus | minus⟩
  case some.minus =>
    have added {x y : α} (same : x = y) :
        Except.ok (⟨some (left, .plus), x⟩ : Terms α) =
          (.ok ⟨some (left, .plus), y⟩ : Except ExpressionError (Terms α)) := by rw [same]
    rcases product with _ | ⟨factor, times | dividedBy⟩
    · cases negative
      · rfl
      · exact added (laws.neg_neg value).symm
    · exact added (laws.neg_mul factor _)
    · rw [Pending.absorbed, supply_dividedBy, supply_dividedBy, laws.neg_div]
      split <;> rfl
  all_goals
    rcases product with _ | ⟨factor, times | dividedBy⟩
    · rfl
    · rfl
    · simp only [Pending.absorbed, supply_dividedBy]
      split <;> rfl

theorem supplyNumber_absorbed (laws : arith.HasSignLaws) (pending : Pending α) (literal : Text) :
    (pending.absorbed arith).supplyNumber arith literal =
      (pending.supplyNumber arith literal).map (Terms.absorbed arith) := by
  unfold Pending.supplyNumber
  cases literalValue arith literal with
  | error => rfl
  | ok value => exact supply_absorbed laws pending value

theorem operandStep_absorbed (enclosing : List (Pending α)) (pending : Pending α) (offset : Nat)
    (c : Char) :
    Reading.operandStep (enclosing.map (Pending.absorbed arith)) (pending.absorbed arith) offset c =
      (Reading.operandStep enclosing pending offset c).map (Reading.absorbed arith) := by
  have flipped : { pending.absorbed arith with negative := !(pending.absorbed arith).negative } =
      Pending.absorbed arith { pending with negative := !pending.negative } := by
    obtain ⟨_ | ⟨left, plus | minus⟩, _ | ⟨factor, kind⟩, negative⟩ := pending <;> rfl
  unfold Reading.operandStep
  rw [flipped, List.length_map]
  repeat' split
  all_goals rfl

theorem Terms.absorbed_absorbed (terms : Terms α) :
    (terms.absorbed arith).absorbed arith = terms.absorbed arith := by
  obtain ⟨_ | ⟨left, plus | minus⟩, last⟩ := terms <;> rfl

theorem Pending.absorbed_absorbed (pending : Pending α) :
    (pending.absorbed arith).absorbed arith = pending.absorbed arith := by
  obtain ⟨_ | ⟨left, plus | minus⟩, _ | ⟨factor, kind⟩, negative⟩ := pending <;> rfl

theorem map_absorbed_absorbed (enclosing : List (Pending α)) :
    (enclosing.map (Pending.absorbed arith)).map (Pending.absorbed arith) =
      enclosing.map (Pending.absorbed arith) := by
  simp [Pending.absorbed_absorbed]

theorem operatorStep_absorbed (laws : arith.HasSignLaws) (enclosing : List (Pending α))
    (terms : Terms α) (offset : Nat) (c : Char) :
    (Reading.operatorStep arith (enclosing.map (Pending.absorbed arith)) (terms.absorbed arith)
        offset c).map (Reading.absorbed arith) =
      (Reading.operatorStep arith enclosing terms offset c).map (Reading.absorbed arith) := by
  have factor (kind : Multiplicative) :
      Pending.absorbed arith
          ⟨(terms.absorbed arith).sum, some ((terms.absorbed arith).last, kind), false⟩ =
        Pending.absorbed arith ⟨terms.sum, some (terms.last, kind), false⟩ := by
    obtain ⟨_ | ⟨left, plus | minus⟩, last⟩ := terms <;> rfl
  unfold Reading.operatorStep
  rw [total_absorbed laws]
  split
  · simp only [Except.map, Reading.absorbed, Phase.absorbed, map_absorbed_absorbed,
      Terms.absorbed_absorbed]
  split
  · simp only [Except.map, Reading.absorbed, Phase.absorbed, map_absorbed_absorbed]
  split
  · simp only [Except.map, Reading.absorbed, Phase.absorbed, map_absorbed_absorbed]
  split
  · simp only [Except.map, Reading.absorbed, Phase.absorbed, map_absorbed_absorbed, factor]
  split
  · simp only [Except.map, Reading.absorbed, Phase.absorbed, map_absorbed_absorbed, factor]
  cases enclosing with
  | nil => rfl
  | cons pending outer =>
    simp only [List.map_cons]
    split
    · rw [supply_absorbed laws]
      cases pending.supply arith (terms.total arith) with
      | error => rfl
      | ok closed =>
        simp only [Except.map, bind, Except.bind, Reading.absorbed, Phase.absorbed,
          map_absorbed_absorbed, Terms.absorbed_absorbed]
    · rfl

theorem Reading.absorbed_absorbed (r : Reading α) :
    (r.absorbed arith).absorbed arith = r.absorbed arith := by
  obtain ⟨enclosing, phase⟩ := r
  cases phase <;>
    simp only [Reading.absorbed, Phase.absorbed, map_absorbed_absorbed, Terms.absorbed_absorbed,
      Pending.absorbed_absorbed]

theorem Reading.step_absorbed (laws : arith.HasSignLaws) (r : Reading α) (offset : Nat) (c : Char) :
    ((r.absorbed arith).step arith offset c).map (Reading.absorbed arith) =
      (r.step arith offset c).map (Reading.absorbed arith) := by
  obtain ⟨enclosing, phase⟩ := r
  cases phase with
  | operand pending =>
    simp only [Reading.step, Reading.absorbed, Phase.absorbed]
    rw [operandStep_absorbed]
    cases Reading.operandStep enclosing pending offset c with
    | error => rfl
    | ok next => simp only [Except.map, Reading.absorbed_absorbed]
  | operator terms => exact operatorStep_absorbed laws enclosing terms offset c
  | number pending literal =>
    simp only [Reading.step, Reading.absorbed, Phase.absorbed]
    split
    · simp only [Except.map, Reading.absorbed, Phase.absorbed, map_absorbed_absorbed,
        Pending.absorbed_absorbed]
    · rw [supplyNumber_absorbed laws]
      cases pending.supplyNumber arith literal with
      | error => rfl
      | ok terms => exact operatorStep_absorbed laws enclosing terms offset c

theorem close_absorbed (laws : arith.HasSignLaws) (enclosing : List (Pending α))
    (terms : Terms α) :
    Reading.close arith (enclosing.map (Pending.absorbed arith)) (terms.absorbed arith) =
      Reading.close arith enclosing terms := by
  cases enclosing with
  | nil => exact congrArg Except.ok (total_absorbed laws terms)
  | cons => rfl

theorem Reading.finish_absorbed (laws : arith.HasSignLaws) (r : Reading α) :
    (r.absorbed arith).finish arith = r.finish arith := by
  obtain ⟨enclosing, phase⟩ := r
  cases phase with
  | operand => rfl
  | operator terms => exact close_absorbed laws enclosing terms
  | number pending literal =>
    simp only [Reading.finish, Reading.absorbed, Phase.absorbed]
    rw [supplyNumber_absorbed laws]
    cases pending.supplyNumber arith literal with
    | error => rfl
    | ok terms => exact close_absorbed laws enclosing terms

theorem Reading.meaning_absorbed (laws : arith.HasSignLaws) (r : Reading α) (t : Text) :
    (r.absorbed arith).meaning arith t = r.meaning arith t := by
  induction t generalizing r with
  | nil => exact congrArg (Except.mapError _) (r.finish_absorbed laws)
  | cons c t ih =>
    have moved := r.step_absorbed laws 0 c
    rw [Reading.meaning_cons, Reading.meaning_cons]
    cases left : (r.absorbed arith).step arith 0 c with
    | error e =>
      cases right : r.step arith 0 c with
      | error f =>
        rw [left, right] at moved
        rw [Except.error.inj moved]
      | ok => rw [left, right] at moved; cases moved
    | ok next =>
      cases right : r.step arith 0 c with
      | error => rw [left, right] at moved; cases moved
      | ok other =>
        rw [left, right] at moved
        change next.meaning arith t = other.meaning arith t
        rw [← ih next, ← ih other, Except.ok.inj moved]

theorem Reading.meaning_eq_of_absorbed (laws : arith.HasSignLaws) {r s : Reading α}
    (same : r.absorbed arith = s.absorbed arith) (t : Text) :
    r.meaning arith t = s.meaning arith t := by
  rw [← r.meaning_absorbed laws, same, s.meaning_absorbed laws]

/-! ## Pairs of signs -/

def sign (minus : Bool) : Char := if minus then '-' else '+'

theorem Reading.meaning_step {r next : Reading α} {c : Char} (moved : r.step arith 0 c = .ok next)
    (t : Text) : r.meaning arith (c :: t) = next.meaning arith t := by
  rw [Reading.meaning_cons, moved]
  rfl

theorem meaning_sign_operand (enclosing : List (Pending α)) (pending : Pending α) (minus : Bool)
    (t : Text) :
    Reading.meaning arith ⟨enclosing, .operand pending⟩ (sign minus :: t) =
      Reading.meaning arith
        ⟨enclosing, .operand { pending with negative := pending.negative != minus }⟩ t := by
  cases minus with
  | false =>
    rw [Bool.bne_false]
    exact Reading.meaning_step (by rfl) t
  | true =>
    rw [Bool.bne_true]
    exact Reading.meaning_step (by rfl) t

theorem meaning_sign_operator (enclosing : List (Pending α)) (terms : Terms α) (minus : Bool)
    (t : Text) :
    Reading.meaning arith ⟨enclosing, .operator terms⟩ (sign minus :: t) =
      Reading.meaning arith ⟨enclosing, .operand
        ⟨some (terms.total arith, if minus then .minus else .plus), none, false⟩⟩ t := by
  cases minus <;> exact Reading.meaning_step (by rfl) t

theorem meaning_sign_number (enclosing : List (Pending α)) (pending : Pending α) (literal : Text)
    (minus : Bool) (t : Text) :
    Reading.meaning arith ⟨enclosing, .number pending literal⟩ (sign minus :: t) =
      ((pending.supplyNumber arith literal).mapError ExpressionError.unplaced >>= fun terms =>
        Reading.meaning arith ⟨enclosing, .operator terms⟩ (sign minus :: t)) := by
  have ends : continues literal (sign minus) = false := by
    cases minus <;> rfl
  simp only [Reading.meaning_cons, Reading.step, ends]
  cases pending.supplyNumber arith literal <;> rfl

theorem Reading.meaning_pair (laws : arith.HasSignLaws) (first second : Bool) (r : Reading α)
    (t : Text) :
    r.meaning arith (sign first :: sign second :: t) =
      r.meaning arith (sign (first != second) :: t) := by
  -- After an operand the first sign is the operation and the second belongs to the next operand;
  -- the minus sign of the two may belong to either.
  have operator (enclosing : List (Pending α)) (terms : Terms α) :
      Reading.meaning arith ⟨enclosing, .operator terms⟩ (sign first :: sign second :: t) =
        Reading.meaning arith ⟨enclosing, .operator terms⟩ (sign (first != second) :: t) := by
    rw [meaning_sign_operator, meaning_sign_operand, meaning_sign_operator]
    apply Reading.meaning_eq_of_absorbed laws
    cases first <;> cases second <;> rfl
  obtain ⟨enclosing, phase⟩ := r
  cases phase with
  | operand pending =>
    rw [meaning_sign_operand, meaning_sign_operand, meaning_sign_operand, Bool.bne_assoc]
  | operator terms => exact operator enclosing terms
  | number pending literal =>
    rw [meaning_sign_number, meaning_sign_number]
    simp only [operator]

theorem Reading.meaning_collapsePair (laws : arith.HasSignLaws) (first second : Bool)
    (r : Reading α) (t : Text) :
    r.meaning arith (collapsePair (sign first) (sign second) (sign (first != second)) t) =
      r.meaning arith t := by
  fun_induction collapsePair (sign first) (sign second) (sign (first != second)) t
    generalizing r with
  | case1 _ _ rest same ih =>
    obtain ⟨rfl, rfl⟩ := same
    rw [r.meaning_pair laws, Reading.meaning_cons, Reading.meaning_cons]
    simp only [ih]
  | case2 d e rest other ih =>
    rw [Reading.meaning_cons, Reading.meaning_cons]
    simp only [ih]
  | case3 => rfl

theorem Reading.meaning_collapseSigns (laws : arith.HasSignLaws) (r : Reading α) (t : Text) :
    r.meaning arith (collapseSigns t) = r.meaning arith t := by
  have minusMinus := r.meaning_collapsePair laws true true
  have plusMinus := r.meaning_collapsePair laws false true
  have minusPlus := r.meaning_collapsePair laws true false
  have plusPlus := r.meaning_collapsePair laws false false
  exact (((plusPlus _).trans (minusPlus _)).trans (plusMinus _)).trans (minusMinus t)

theorem mapError_value_normalize (laws : arith.HasSignLaws) (t : Text) :
    (value arith (normalize t)).mapError ExpressionError.unplaced =
      (value arith (expandPercent t)).mapError ExpressionError.unplaced :=
  Reading.start.meaning_collapseSigns laws (expandPercent t)

theorem exists_error_of_normalize (laws : arith.HasSignLaws) {t : Text} {e : ExpressionError}
    (failed : value arith (normalize t) = .error e) :
    ∃ f, value arith (expandPercent t) = .error f ∧ e.unplaced = f.unplaced := by
  have same := mapError_value_normalize laws t
  rw [failed] at same
  cases written : value arith (expandPercent t) with
  | ok w =>
    rw [written] at same
    cases same
  | error f =>
    rw [written] at same
    exact ⟨f, rfl, Except.error.inj same⟩

/-- A text whose doubled signs are collapsed has the value that it has when only its percent signs
are written out, or both have the same error, which they may meet at different places. -/
theorem value_normalize (laws : arith.HasSignLaws) (t : Text) :
    (∃ v, value arith (normalize t) = .ok v ∧ value arith (expandPercent t) = .ok v) ∨
      ∃ e f, value arith (normalize t) = .error e ∧ value arith (expandPercent t) = .error f ∧
        e.unplaced = f.unplaced := by
  cases collapsed : value arith (normalize t) with
  | error e =>
    obtain ⟨f, written, alike⟩ := exists_error_of_normalize laws collapsed
    exact .inr ⟨e, f, rfl, written, alike⟩
  | ok v =>
    have same := mapError_value_normalize laws t
    cases written : value arith (expandPercent t) with
    | ok w =>
      rw [collapsed, written] at same
      exact .inl ⟨v, rfl, same.symm⟩
    | error f =>
      rw [collapsed, written] at same
      cases same

theorem value_normalize_binary64 :
    Binary64.arithmetic.HasSignLaws ∧
      ((∃ v, value Binary64.arithmetic (normalize "6-+-2*3%".toList) = .ok v ∧
          value Binary64.arithmetic (expandPercent "6-+-2*3%".toList) = .ok v) ∨
        ∃ e f, value Binary64.arithmetic (normalize "6-+-2*3%".toList) = .error e ∧
          value Binary64.arithmetic (expandPercent "6-+-2*3%".toList) = .error f ∧
          e.unplaced = f.unplaced) :=
  ⟨Binary64.hasSignLaws, value_normalize Binary64.hasSignLaws _⟩

end Expression

end DeskCalculator
