import DeskCalculator.Proofs.Expression.Errors
import DeskCalculator.Proofs.Expression.Negation
/-!
Negating the last number of a sentence. The reader comes to the number with the opposite sign
waiting, and nothing after the number can tell the difference but by that sign; so the text is again
a sentence, with the same tree but for the sign of its last number.
-/
namespace DeskCalculator.Expression

open Expression.Tree (supply total step finish readFrom advance OperandStep OperatorStep)

def Tree.negateLast : Tree → Tree
  | number literal => negative (number literal)
  | group inner => group inner.negateLast
  | negative operand => operand.negateLast.toggle
  | binary op left right => binary op left right.negateLast

def Terms.negateLast (terms : Terms Tree) : Terms Tree :=
  { terms with last := terms.last.negateLast }

def Pending.flip {α : Type} (pending : Pending α) : Pending α :=
  { pending with negative := !pending.negative }

theorem Pending.flip_flip {α : Type} (pending : Pending α) : pending.flip.flip = pending := by
  simp [flip]

theorem total_negateLast (terms : Terms Tree) :
    total terms.negateLast = (total terms).negateLast := by
  obtain ⟨sum, last⟩ := terms
  rcases sum with _ | ⟨left, _ | _⟩ <;> rfl

theorem supply_negateLast (pending : Pending Tree) {e : Tree} (primary : e.toggle = .negative e) :
    supply pending e.negateLast = (supply pending e).negateLast := by
  obtain ⟨sum, product, negative⟩ := pending
  have signed : (if negative then e.negateLast.toggle else e.negateLast) =
      (if negative then e.toggle else e).negateLast := by
    rw [primary]
    cases negative <;> rfl
  simp only [supply, signed]
  rcases product with _ | ⟨left, _ | _⟩ <;> rfl

theorem supply_flip (pending : Pending Tree) (literal : Text) :
    supply pending.flip (.number literal) = (supply pending (.number literal)).negateLast := by
  rw [← supply_negateLast pending rfl]
  exact supply_minus pending rfl

/-! ## After the last number -/

theorem readFrom_bare {enclosing : List (Pending Tree)} {pending : Pending Tree} {literal t : Text}
    (bare : ¬literal.any Char.isDigit = true) (digitless : ∀ c ∈ t, c.isDigit = false) :
    readFrom ⟨enclosing, .number pending literal⟩ t = none := by
  induction t generalizing literal with
  | nil => exact finish_of_bare rfl bare
  | cons c t ih =>
    rw [Tree.readFrom_cons]
    by_cases goes : continues literal c = true
    · have moved : step ⟨enclosing, .number pending literal⟩ c =
          some ⟨enclosing, .number pending (literal ++ [c])⟩ := if_pos goes
      have still : ¬(literal ++ [c]).any Char.isDigit = true := by
        simpa [digitless c List.mem_cons_self] using bare
      rw [moved, Option.bind_some]
      exact ih still fun d member => digitless d (List.mem_cons_of_mem c member)
    · rw [step_of_bare rfl bare goes, Option.bind_none]

theorem readFrom_digitless {enclosing : List (Pending Tree)} {pending : Pending Tree} {t : Text}
    (digitless : ∀ c ∈ t, c.isDigit = false) :
    readFrom ⟨enclosing, .operand pending⟩ t = none := by
  induction t generalizing enclosing pending with
  | nil => rfl
  | cons c t ih =>
    have later : ∀ d ∈ t, d.isDigit = false := fun d member =>
      digitless d (List.mem_cons_of_mem c member)
    rw [Tree.readFrom_cons]
    cases moved : step ⟨enclosing, .operand pending⟩ c with
    | none => rfl
    | some next =>
      rw [Option.bind_some]
      cases OperandStep.of_eq moved with
      | skip | minus | openGroup => exact ih later
      | number =>
        have bare : ¬[c].any Char.isDigit = true := by
          simp [digitless c List.mem_cons_self]
        exact readFrom_bare bare later

theorem readFrom_negateLast {enclosing : List (Pending Tree)} {terms : Terms Tree} {t : Text}
    (digitless : ∀ c ∈ t, c.isDigit = false) :
    readFrom ⟨enclosing, .operator terms.negateLast⟩ t =
      (readFrom ⟨enclosing, .operator terms⟩ t).map Tree.negateLast := by
  induction t generalizing enclosing terms with
  | nil =>
    cases enclosing with
    | nil => exact congrArg some (total_negateLast terms)
    | cons => rfl
  | cons c t ih =>
    have later : ∀ d ∈ t, d.isDigit = false := fun d member =>
      digitless d (List.mem_cons_of_mem c member)
    cases moved : step ⟨enclosing, .operator terms⟩ c with
    | none =>
      have stuck : step ⟨enclosing, .operator terms.negateLast⟩ c = none := by
        rw [Option.eq_none_iff_forall_ne_some]
        intro next moved'
        cases OperatorStep.of_eq moved' <;> cases moved
      rw [Tree.readFrom_cons, Tree.readFrom_cons, moved, stuck]
      rfl
    | some next =>
      cases OperatorStep.of_eq moved with
      | blank =>
        have moved' : step ⟨enclosing, .operator terms.negateLast⟩ ' ' =
            some ⟨enclosing, .operator terms.negateLast⟩ := rfl
        rw [Tree.readFrom_step moved, Tree.readFrom_step moved', ih later]
      | plus | minus | times | dividedBy =>
        -- Another operand is due, and there is none.
        rw [Tree.readFrom_step moved, Tree.readFrom_cons, readFrom_digitless later]
        exact readFrom_digitless later
      | @closeGroup pending outer =>
        have moved' : step ⟨pending :: outer, .operator terms.negateLast⟩ ')' =
            some ⟨outer, .operator (supply pending (.group (total terms.negateLast)))⟩ := rfl
        have same : supply pending (.group (total terms.negateLast)) =
            (supply pending (.group (total terms))).negateLast := by
          rw [total_negateLast]
          exact supply_negateLast pending (e := .group (total terms)) rfl
        rw [Tree.readFrom_step moved, Tree.readFrom_step moved', same, ih later]

theorem readFrom_number_flip {enclosing : List (Pending Tree)} {pending : Pending Tree}
    {literal t : Text} (digit : literal.any Char.isDigit = true)
    (digitless : ∀ c ∈ t, c.isDigit = false) :
    readFrom ⟨enclosing, .number pending.flip literal⟩ t =
      (readFrom ⟨enclosing, .number pending literal⟩ t).map Tree.negateLast := by
  induction t generalizing literal with
  | nil =>
    rw [readFrom_number digit stops_nil, readFrom_number digit stops_nil, supply_flip]
    exact readFrom_negateLast digitless
  | cons c t ih =>
    by_cases goes : continues literal c = true
    · have moved (waiting : Pending Tree) : step ⟨enclosing, .number waiting literal⟩ c =
          some ⟨enclosing, .number waiting (literal ++ [c])⟩ := if_pos goes
      have still : (literal ++ [c]).any Char.isDigit = true := by
        rw [List.any_append, digit, Bool.true_or]
      rw [Tree.readFrom_step (moved _), Tree.readFrom_step (moved _)]
      exact ih still fun d member => digitless d (List.mem_cons_of_mem c member)
    · rw [readFrom_number_cons digit goes, readFrom_number_cons digit goes, supply_flip]
      exact readFrom_negateLast digitless

/-! ## Before the last number -/

theorem readFrom_second_point {enclosing : List (Pending Tree)} {pending : Pending Tree}
    {literal digits : Text} (pointed : '.' ∈ literal) (numeric : ∀ c ∈ digits, isNumeric c = true)
    (point : '.' ∈ digits) (rest : Text) :
    readFrom ⟨enclosing, .number pending literal⟩ (digits ++ rest) = none := by
  induction digits generalizing literal with
  | nil => cases point
  | cons c digits ih =>
    rw [List.cons_append]
    by_cases second : c = '.'
    · subst second
      have ends : ¬continues literal '.' = true := by simp [continues, pointed]
      by_cases digit : literal.any Char.isDigit = true
      · rw [readFrom_number_cons digit ends, Tree.readFrom_cons]
        cases enclosing <;> rfl
      · rw [Tree.readFrom_cons, step_of_bare rfl digit ends, Option.bind_none]
    · have goes : continues literal c = true := by
        simp [continues, isDigit_of_isNumeric (numeric c List.mem_cons_self) second]
      have moved : step ⟨enclosing, .number pending literal⟩ c =
          some ⟨enclosing, .number pending (literal ++ [c])⟩ := if_pos goes
      rw [Tree.readFrom_step moved]
      apply ih (List.mem_append_left _ pointed)
      · exact fun d member => numeric d (List.mem_cons_of_mem c member)
      · exact (List.mem_cons.1 point).resolve_left fun same => second same.symm

theorem readFrom_operator_numeric {enclosing : List (Pending Tree)} {terms : Terms Tree} {c : Char}
    (numeric : isNumeric c = true) (t : Text) :
    readFrom ⟨enclosing, .operator terms⟩ (c :: t) = none := by
  rw [Tree.readFrom_cons, Option.bind_eq_none_iff]
  intro next moved
  cases OperatorStep.of_eq moved <;> cases numeric

theorem exists_operand_before {n : LastNumber} {t : Text} (last : n.IsLastOf t)
    (sentence : IsSentence t) : ∃ enclosing pending,
      advance .start (n.before ++ n.sign.toList) = some ⟨enclosing, .operand pending⟩ := by
  obtain ⟨e, derives⟩ := sentence
  have read := ofText?_of_derives derives
  rw [← last.text, n.text_eq, Tree.ofText?, Tree.readFrom_append] at read
  obtain ⟨⟨enclosing, phase⟩, led, read⟩ := Option.bind_eq_some_iff.1 read
  cases phase with
  | operand pending => exact ⟨enclosing, pending, led⟩
  | operator terms =>
    obtain ⟨d, digits, split, numeric⟩ := last.starts
    rw [split, List.cons_append, readFrom_operator_numeric numeric] at read
    cases read
  | number pending literal =>
    -- Only a point could stand between the two parts of the number.
    obtain ⟨p, split, nonempty, isLiteral, _⟩ := exists_number_start led
    rw [← List.dropLast_concat_getLast nonempty, ← List.append_assoc] at split
    obtain ⟨other, second⟩ := last.longest _ _ split
    have member := List.getLast_mem nonempty
    have point : literal.getLast nonempty = '.' := by
      rcases (isNumeric_iff _).1 (isLiteral.numeric _ member) with digit | point
      · rw [other] at digit
        cases digit
      · exact point
    rw [point] at member
    rw [readFrom_second_point member last.literal.numeric (second point)] at read
    cases read

theorem exists_operand_of_step {r next : Reading Tree} {c : Char}
    (place : isOperator c = true ∨ c = '(') (moved : step r c = some next) :
    ∃ enclosing pending, next = ⟨enclosing, .operand pending⟩ := by
  have other : isNumeric c = false := by
    rw [Bool.eq_false_iff]
    intro numeric
    rcases place with operator | rfl
    · rw [isOperator_eq_false numeric] at operator
      cases operator
    · cases numeric
  have operator {before : List (Pending Tree)} {terms : Terms Tree}
      (moved : OperatorStep before terms c next) :
      ∃ enclosing pending, next = ⟨enclosing, .operand pending⟩ := by
    cases moved with
    | plus | minus | times | dividedBy => exact ⟨_, _, rfl⟩
    | blank | closeGroup => exact absurd place (by decide)
  obtain ⟨before, phase⟩ := r
  cases phase with
  | operand waiting =>
    cases OperandStep.of_eq moved with
    | skip | minus | openGroup => exact ⟨_, _, rfl⟩
    | number starts =>
      rw [(isNumeric_iff c).2 starts] at other
      cases other
  | operator terms => exact operator (OperatorStep.of_eq moved)
  | number waiting literal =>
    simp only [step, if_neg (not_continues other literal)] at moved
    obtain ⟨terms, _, moved⟩ := Option.bind_eq_some_iff.1 moved
    exact operator (OperatorStep.of_eq moved)

theorem exists_operand_of_isSignPlace {t : Text} {r : Reading Tree} (place : IsSignPlace t)
    (led : advance .start t = some r) : ∃ enclosing pending, r = ⟨enclosing, .operand pending⟩ := by
  rcases List.eq_nil_or_concat t with rfl | ⟨p, c, rfl⟩
  · cases led
    exact ⟨_, _, rfl⟩
  · rw [List.concat_eq_append] at place led
    rw [Tree.advance_append_singleton] at led
    obtain ⟨earlier, _, moved⟩ := Option.bind_eq_some_iff.1 led
    exact exists_operand_of_step ((isSignPlace_append_singleton p c).1 place) moved

theorem advance_flippedSign {n : LastNumber} {t : Text} (last : n.IsLastOf t)
    {enclosing : List (Pending Tree)} {pending : Pending Tree}
    (led : advance .start (n.before ++ n.sign.toList) = some ⟨enclosing, .operand pending⟩) :
    advance .start (n.before ++ n.flippedSign) = some ⟨enclosing, .operand pending.flip⟩ := by
  have minus {waiting : Pending Tree} {t : Text}
      (led : advance .start t = some ⟨enclosing, .operand waiting⟩) :
      advance .start (t ++ ['-']) = some ⟨enclosing, .operand waiting.flip⟩ := by
    rw [Tree.advance_append_singleton, led]
    rfl
  cases sign : n.sign with
  | none =>
    rw [sign, Option.toList_none, List.append_nil] at led
    rw [LastNumber.flippedSign, sign, if_neg (by decide)]
    exact minus led
  | some c =>
    obtain ⟨mark, place⟩ := last.signed c sign
    rw [sign, Option.toList_some, Tree.advance_append_singleton] at led
    obtain ⟨earlier, begun, moved⟩ := Option.bind_eq_some_iff.1 led
    obtain ⟨before, waiting, rfl⟩ := exists_operand_of_isSignPlace place begun
    rw [LastNumber.flippedSign, sign]
    rcases mark with rfl | rfl
    · cases moved
      rw [if_neg (by decide)]
      exact minus begun
    · cases moved
      rw [if_pos rfl, List.append_nil, begun]
      change _ = some (Reading.mk before (.operand waiting.flip.flip))
      rw [waiting.flip_flip]

/-! ## Sentences -/

theorem exists_isLastOf {t : Text} (sentence : IsSentence t) : ∃ n : LastNumber, n.IsLastOf t := by
  cases found : LastNumber.find? t with
  | some n => exact ⟨n, LastNumber.isLastOf_of_find? found⟩
  | none =>
    obtain ⟨e, derives⟩ := sentence
    have read := ofText?_of_derives derives
    have digitless := LastNumber.find?_eq_none_iff.1 found
    rw [Tree.ofText?, Reading.start, readFrom_digitless digitless] at read
    cases read

/-- The tree of a sentence with its last number negated. -/
theorem Derives.negateLast {t : Text} {e : Tree} (derives : Derives .sum t e) :
    Derives .sum (negateLast t) e.negateLast := by
  obtain ⟨n, last⟩ := exists_isLastOf ⟨e, derives⟩
  obtain ⟨enclosing, pending, led⟩ := exists_operand_before last ⟨e, derives⟩
  have read := ofText?_of_derives derives
  rw [← last.text, n.text_eq, Tree.ofText?, Tree.readFrom_append, led, Option.bind_some] at read
  rw [negateLast_of_isLastOf last, n.negated_eq, derives_iff_ofText?, Tree.ofText?,
    Tree.readFrom_append, advance_flippedSign last led, Option.bind_some]
  have nonempty : n.digits ≠ [] := by
    rintro empty
    have ends := last.ends
    rw [empty] at ends
    cases ends
  have digit : n.digits.any Char.isDigit = true := by
    obtain ⟨p, d, split, digit⟩ := Text.exists_of_endsWith last.ends
    exact List.any_eq_true.2 ⟨d, by rw [split]; simp, digit⟩
  rw [readFrom_operand_literal last.literal nonempty] at read ⊢
  rw [readFrom_number_flip digit last.after, read]
  rfl

end DeskCalculator.Expression
