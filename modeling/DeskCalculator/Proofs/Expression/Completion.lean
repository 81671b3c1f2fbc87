import DeskCalculator.Proofs.Expression.PlainReading
/-!
The parentheses of sentences, and what is missing from the start of one. A sentence has a closing
parenthesis for each opening one. Where a plain text that a sentence starts with ends in an operand,
closing its open groups makes it a sentence.
-/
namespace DeskCalculator.Expression

open Expression.Tree (supply total step finish readFrom advance OperandStep OperatorStep)

/-! ## Open groups -/

def HasMatchedGroups (t : Text) : Prop :=
  t.count '(' = t.count ')' ∧ ∀ p s, t = p ++ s → p.count ')' ≤ p.count '('

theorem count_parenthesis {c : Char} (other : isDelimiter c = false) :
    [c].count '(' = 0 ∧ [c].count ')' = 0 := by
  constructor
  · apply List.count_eq_zero_of_not_mem
    rw [List.mem_singleton]
    rintro rfl
    cases other
  · apply List.count_eq_zero_of_not_mem
    rw [List.mem_singleton]
    rintro rfl
    cases other

theorem Tree.OperandStep.groups {enclosing : List (Pending Tree)} {pending : Pending Tree}
    {c : Char} {next : Reading Tree} (moved : OperandStep enclosing pending c next) :
    next.enclosing.length + [c].count ')' = enclosing.length + [c].count '(' := by
  cases moved with
  | skip skipped => rcases skipped with rfl | rfl <;> rfl
  | minus => rfl
  | openGroup => rfl
  | number starts =>
    obtain ⟨opened, closed⟩ := count_parenthesis (isDelimiter_eq_false starts)
    rw [opened, closed]

theorem Tree.OperatorStep.groups {enclosing : List (Pending Tree)} {terms : Terms Tree} {c : Char}
    {next : Reading Tree} (moved : OperatorStep enclosing terms c next) :
    next.enclosing.length + [c].count ')' = enclosing.length + [c].count '(' := by
  cases moved <;> rfl

theorem groups_step {r next : Reading Tree} {c : Char} (moved : step r c = some next) :
    next.enclosing.length + [c].count ')' = r.enclosing.length + [c].count '(' := by
  obtain ⟨enclosing, phase⟩ := r
  cases phase with
  | operand pending => exact (OperandStep.of_eq moved).groups
  | operator terms => exact (OperatorStep.of_eq moved).groups
  | number pending literal =>
    simp only [step] at moved
    split at moved
    next goes =>
      cases moved
      simp only [continues, Bool.or_eq_true, Bool.and_eq_true, beq_iff_eq] at goes
      obtain ⟨opened, closed⟩ := count_parenthesis (isDelimiter_eq_false (goes.imp_right And.left))
      rw [opened, closed]
    next =>
      obtain ⟨terms, _, moved⟩ := Option.bind_eq_some_iff.1 moved
      exact (OperatorStep.of_eq moved).groups

theorem count_of_advance {t : Text} {r : Reading Tree} (led : advance .start t = some r) :
    t.count '(' = t.count ')' + r.enclosing.length := by
  induction t using List.reverseRecOn generalizing r with
  | nil =>
    cases led
    rfl
  | append_singleton t c ih =>
    rw [Tree.advance_append_singleton] at led
    obtain ⟨earlier, led, moved⟩ := Option.bind_eq_some_iff.1 led
    have before := ih led
    have groups := groups_step moved
    rw [List.count_append, List.count_append]
    omega

theorem exists_advance {p s : Text} {r : Reading Tree} (led : advance .start (p ++ s) = some r) :
    ∃ q, advance .start p = some q ∧ advance q s = some r := by
  rw [advance, List.foldlM_append] at led
  exact Option.bind_eq_some_iff.1 led

theorem enclosing_of_finish {r : Reading Tree} {e : Tree} (ended : finish r = some e) :
    r.enclosing = [] := by
  have closed (terms : Terms Tree) (last : Tree.close r.enclosing terms = some e) :
      r.enclosing = [] := by
    cases enclosing : r.enclosing with
    | nil => rfl
    | cons => rw [enclosing] at last; cases last
  obtain ⟨enclosing, phase⟩ := r
  cases phase with
  | operand => cases ended
  | operator terms => exact closed terms ended
  | number pending literal =>
    obtain ⟨terms, _, ended⟩ := Option.bind_eq_some_iff.1 ended
    exact closed terms ended

theorem IsSentence.hasMatchedGroups {t : Text} (sentence : IsSentence t) : HasMatchedGroups t := by
  obtain ⟨e, derives⟩ := sentence
  obtain ⟨r, led, ended⟩ := Option.bind_eq_some_iff.1 (ofText?_of_derives derives)
  constructor
  · rw [count_of_advance led, enclosing_of_finish ended]
    rfl
  · rintro p s rfl
    obtain ⟨q, begun, _⟩ := exists_advance led
    rw [count_of_advance begun]
    exact Nat.le_add_right _ _

/-! ## Closing them -/

theorem exists_readFrom_closing (enclosing : List (Pending Tree)) (terms : Terms Tree) :
    ∃ e, readFrom ⟨enclosing, .operator terms⟩ (List.replicate enclosing.length ')') = some e := by
  induction enclosing generalizing terms with
  | nil => exact ⟨total terms, rfl⟩
  | cons pending outer ih =>
    obtain ⟨e, read⟩ := ih (supply pending (.group (total terms)))
    have moved : step ⟨pending :: outer, .operator terms⟩ ')' =
        some ⟨outer, .operator (supply pending (.group (total terms)))⟩ := rfl
    exact ⟨e, by rw [List.length_cons, List.replicate_succ, Tree.readFrom_step moved, read]⟩

theorem stops_closing (n : Nat) : Stops (List.replicate n ')') := by
  cases n with
  | zero => exact stops_nil
  | succ n => exact stops_cons rfl

theorem IsSignPlace.endsWith_operand {t : Text} (place : IsSignPlace t) :
    t.endsWith (fun c => isNumeric c || c == ')') = false := by
  rw [Bool.eq_false_iff]
  intro ends
  obtain ⟨p, c, rfl, last⟩ := Text.exists_of_endsWith ends
  rw [Bool.or_eq_true, beq_iff_eq] at last
  rcases last with numeric | rfl
  · have other := place.endsWith_isNumeric
    rw [Text.endsWith_append_singleton, numeric] at other
    cases other
  · rcases (isSignPlace_append_singleton p ')').1 place with operator | opened
    · cases operator
    · exact absurd opened (by decide)

theorem isSentence_closing {t : Text} {r : Reading Tree} (plain : IsPlain t)
    (ends : t.endsWith (fun c => isNumeric c || c == ')') = true)
    (led : advance .start t = some r) :
    IsSentence (t ++ List.replicate r.enclosing.length ')') := by
  have after := isAfter_of_advance plain led
  have closes : ∃ e, readFrom r (List.replicate r.enclosing.length ')') = some e := by
    obtain ⟨enclosing, phase⟩ := r
    cases phase with
    | operand pending =>
      rw [IsSignPlace.endsWith_operand after] at ends
      cases ends
    | operator terms => exact exists_readFrom_closing enclosing terms
    | number pending literal =>
      rw [readFrom_number after (stops_closing _)]
      exact exists_readFrom_closing enclosing _
  obtain ⟨e, read⟩ := closes
  refine ⟨e, (derives_iff_ofText? _ e).2 ?_⟩
  rw [Tree.ofText?, Tree.readFrom_append, led, Option.bind_some, read]

end DeskCalculator.Expression
