import DeskCalculator.Proofs.Expression.Recognition
/-!
The value of a tree within the limit on open groups, and that it is what the reader computes: of any
sentence, also of one that nests too deep, and down to which of two errors comes first. Each rank of
the grammar leaves the reader after an operand with the value of its tree, or with the error of it.
-/
namespace DeskCalculator.Expression

open Expression.Tree (combine)

variable {α : Type} (arith : Arithmetic α)

/-- The value of a tree in which so many more groups may be open at once. The first group too many
or division by zero, from left to right, leaves it without one. -/
def Tree.valueWithin : Tree → Nat → Except ExpressionError α
  | number literal, _ => literalValue arith literal
  | group _, 0 => .error (.nestingTooDeep maxDepth)
  | group inner, room + 1 => inner.valueWithin room
  | negative operand, room => do .ok (arith.neg (← operand.valueWithin room))
  | binary op left right, room => do
    combine arith (← left.valueWithin room) (← right.valueWithin room) op

theorem Tree.valueWithin_eq_value {e : Tree} {room : Nat} (shallow : e.depth ≤ room) :
    e.valueWithin arith room = e.value arith := by
  induction e generalizing room with
  | number literal => rfl
  | group inner ih =>
    cases room with
    | zero => exact absurd shallow (Nat.not_succ_le_zero _)
    | succ room => exact ih (Nat.le_of_succ_le_succ shallow)
  | negative operand ih => rw [valueWithin, value, ih shallow]
  | binary op left right first second =>
    obtain ⟨fits, fits'⟩ := Nat.max_le.1 shallow
    rw [valueWithin, value, first fits, second fits']

/-! ## What a text yields -/

/-- Where an operand is due, the text leads the reader to the terms or to the error given, whatever
comes before it, and whatever after it does not go on with its last number. -/
def LeadsTo {ι : Type} (t : Text) (waits : ι → Pending α)
    (result : Nat → ι → Except ExpressionError (Terms α)) : Prop :=
  ∀ offset, ∃ later, ∀ before room i rest, before.length + room = maxDepth → Stops rest →
    Reading.run arith ⟨before, .operand (waits i)⟩ offset (t ++ rest) =
      (result room i >>= fun terms => Reading.run arith ⟨before, .operator terms⟩ later rest)

/-- What a text yields by its rank: a primary is supplied to all that waits for it, an operand has
its signs counted first, a product ends a sum, and a sum has its terms still apart. -/
def Yields : Rank → Text → Tree → Prop
  | .primary, t, e =>
    LeadsTo arith t id fun room waiting => e.valueWithin arith room >>= waiting.supply arith
  | .operand, t, e => ∃ primary negative, primary.toggle = .negative primary ∧
    e = (if negative then .negative primary else primary) ∧
    LeadsTo arith t id fun room waiting => primary.valueWithin arith room >>=
      Pending.supply arith { waiting with negative := waiting.negative ^^ negative }
  | .product, t, e => LeadsTo arith t (fun sum => ⟨sum, none, false⟩) fun room sum =>
    e.valueWithin arith room >>= fun v => .ok ⟨sum, v⟩
  | .sum, t, e => ∃ read : Nat → Except ExpressionError (Terms α),
    (∀ room, e.valueWithin arith room = (read room >>= fun terms => .ok (terms.total arith))) ∧
    LeadsTo arith t (fun _ : Unit => .empty) fun room _ => read room

/-! ## Numbers -/

theorem run_cons {r next : Reading α} {c : Char} {offset : Nat}
    (stepped : r.step arith offset c = .ok next) (t : Text) :
    r.run arith offset (c :: t) = next.run arith (offset + 1) t := by
  rw [Reading.run, stepped]
  rfl

theorem exists_run_literal {u v : Text} (literal : IsLiteral (u ++ v)) (offset : Nat) :
    ∃ later, ∀ before waiting rest,
      Reading.run arith ⟨before, .number waiting u⟩ offset (v ++ rest) =
        Reading.run arith ⟨before, .number waiting (u ++ v)⟩ later rest := by
  induction v generalizing u offset with
  | nil => exact ⟨offset, fun before waiting rest => by rw [List.append_nil, List.nil_append]⟩
  | cons c v ih =>
    obtain ⟨later, reads⟩ := ih (u := u ++ [c]) (by simpa using literal) (offset + 1)
    refine ⟨later, fun before waiting rest => ?_⟩
    have stepped : Reading.step arith ⟨before, .number waiting u⟩ offset c =
        .ok ⟨before, .number waiting (u ++ [c])⟩ := if_pos literal.continues
    rw [List.cons_append, run_cons arith stepped, reads, List.append_assoc, List.singleton_append]

theorem run_number {t rest : Text} (stops : Stops rest) (before : List (Pending α))
    (waiting : Pending α) (offset : Nat) :
    Reading.run arith ⟨before, .number waiting t⟩ offset rest =
      (waiting.supplyNumber arith t >>= fun terms =>
        Reading.run arith ⟨before, .operator terms⟩ offset rest) := by
  cases rest with
  | nil => rfl
  | cons c rest =>
    simp only [Reading.run, Reading.step, if_neg (not_continues (stops c rfl) t)]
    cases waiting.supplyNumber arith t <;> rfl

theorem yields_number {t : Text} (numeral : IsNumeral t) : Yields arith .primary t (.number t) := by
  obtain ⟨literal, digit⟩ := (isNumeral_iff t).1 numeral
  intro offset
  cases t with
  | nil => simp at digit
  | cons c t =>
    have numeric := (isNumeric_iff c).1 (literal.numeric c (by simp))
    obtain ⟨notSkipped, notMinus, notOpen⟩ := signless_of_numeric numeric
    obtain ⟨later, reads⟩ := exists_run_literal arith (u := [c]) literal (offset + 1)
    refine ⟨later, fun before room waiting rest _ stops => ?_⟩
    have stepped : Reading.step arith ⟨before, .operand waiting⟩ offset c =
        .ok ⟨before, .number waiting [c]⟩ := by
      simp only [Reading.step, Reading.operandStep, if_neg notSkipped, if_neg notMinus,
        if_neg notOpen, if_pos numeric]
    rw [id_eq, List.cons_append, run_cons arith stepped, reads, run_number arith stops]
    rfl

/-! ## Groups, blanks and signs -/

variable {arith}

theorem yields_group {t : Text} {e : Tree} (inner : Yields arith .sum t e) :
    Yields arith .primary ('(' :: t ++ [')']) (.group e) := by
  obtain ⟨read, value, leads⟩ := inner
  intro offset
  obtain ⟨later, reads⟩ := leads (offset + 1)
  refine ⟨later + 1, fun before room waiting rest fits _ => ?_⟩
  have shape : '(' :: t ++ [')'] ++ rest = '(' :: (t ++ ')' :: rest) := by simp
  rw [shape]
  cases room with
  | zero =>
    have full : ¬before.length < maxDepth := by omega
    have refused : Reading.step arith ⟨before, .operand waiting⟩ offset '(' =
        .error (.nestingTooDeep maxDepth) := if_neg full
    rw [id_eq, Reading.run, refused]
    rfl
  | succ room =>
    have free : before.length < maxDepth := by omega
    have opened : Reading.step arith ⟨before, .operand waiting⟩ offset '(' =
        .ok ⟨waiting :: before, .operand .empty⟩ := if_pos free
    have fits' : (waiting :: before).length + room = maxDepth := by
      rw [List.length_cons]
      omega
    rw [id_eq, run_cons arith opened, reads _ room () _ fits' (stops_cons rfl)]
    simp only [Tree.valueWithin, value]
    cases read room with
    | error => rfl
    | ok terms =>
      -- The closing parenthesis supplies the total to what waited for the group.
      change Reading.run arith ⟨waiting :: before, .operator terms⟩ later (')' :: rest) =
        (waiting.supply arith (terms.total arith) >>= fun outer =>
          Reading.run arith ⟨before, .operator outer⟩ (later + 1) rest)
      change ((waiting.supply arith (terms.total arith) >>= fun outer =>
        .ok (Reading.mk before (.operator outer))) >>= fun next =>
          Reading.run arith next (later + 1) rest) = _
      cases waiting.supply arith (terms.total arith) <;> rfl

theorem yields_blankAfter {t : Text} {e : Tree} (primary : Yields arith .primary t e) :
    Yields arith .primary (t ++ [' ']) e := by
  intro offset
  obtain ⟨later, reads⟩ := primary offset
  refine ⟨later + 1, fun before room waiting rest fits _ => ?_⟩
  rw [List.append_assoc, List.singleton_append, reads _ _ _ _ fits (stops_cons rfl)]
  rfl

theorem LeadsTo.sign {ι : Type} {t : Text} {c : Char} {waits : ι → Pending α}
    {result : Nat → ι → Except ExpressionError (Terms α)} (leads : LeadsTo arith t waits result)
    {κ : Type} {waits' : κ → Pending α} (turn : κ → ι)
    (moved : ∀ before offset k, Reading.step arith ⟨before, .operand (waits' k)⟩ offset c =
      .ok ⟨before, .operand (waits (turn k))⟩) :
    LeadsTo arith (c :: t) waits' fun room k => result room (turn k) := by
  intro offset
  obtain ⟨later, reads⟩ := leads (offset + 1)
  refine ⟨later, fun before room k rest fits stops => ?_⟩
  rw [List.cons_append, run_cons arith (moved before offset k), reads _ _ _ _ fits stops]

theorem yields_minus {t : Text} {e : Tree} (operand : Yields arith .operand t e) :
    Yields arith .operand ('-' :: t) e.toggle := by
  obtain ⟨primary, negative, unsigned, rfl, leads⟩ := operand
  refine ⟨primary, !negative, unsigned, ?_, ?_⟩
  · cases negative
    · exact unsigned
    · rfl
  · have moved (before : List (Pending α)) (offset : Nat) (waiting : Pending α) :
        Reading.step arith ⟨before, .operand (id waiting)⟩ offset '-' =
          .ok ⟨before, .operand { waiting with negative := !waiting.negative }⟩ := rfl
    simpa only [Bool.not_xor, Bool.xor_not] using leads.sign _ moved

theorem LeadsTo.operator {ι κ : Type} {s t : Text} {c : Char} {waits : ι → Pending α}
    {waits' : κ → Pending α} {first : Nat → ι → Except ExpressionError (Terms α)}
    {second : Nat → κ → Except ExpressionError (Terms α)} (left : LeadsTo arith s waits first)
    (right : LeadsTo arith t waits' second) (other : isNumeric c = false) (next : Terms α → κ)
    (moved : ∀ before offset terms, Reading.step arith ⟨before, .operator terms⟩ offset c =
      .ok ⟨before, .operand (waits' (next terms))⟩) :
    LeadsTo arith (s ++ c :: t) waits fun room i =>
      first room i >>= fun terms => second room (next terms) := by
  intro offset
  obtain ⟨middle, reads⟩ := left offset
  obtain ⟨later, reads'⟩ := right (middle + 1)
  refine ⟨later, fun before room i rest fits stops => ?_⟩
  rw [List.append_assoc, List.cons_append, reads _ _ _ _ fits (stops_cons other)]
  dsimp only
  cases first room i with
  | error => rfl
  | ok terms =>
    change Reading.run arith ⟨before, .operator terms⟩ middle (c :: (t ++ rest)) = _
    rw [run_cons arith (moved before middle terms), reads' _ _ _ _ fits stops]
    rfl

/-! ## Operations -/

theorem LeadsTo.restrict {ι κ : Type} {t : Text} {waits : ι → Pending α}
    {result : Nat → ι → Except ExpressionError (Terms α)} (leads : LeadsTo arith t waits result)
    (f : κ → ι) : LeadsTo arith t (fun k => waits (f k)) fun room k => result room (f k) := by
  intro offset
  obtain ⟨later, reads⟩ := leads offset
  exact ⟨later, fun before room k rest fits stops => reads before room (f k) rest fits stops⟩

theorem LeadsTo.congr {ι : Type} {t : Text} {waits : ι → Pending α}
    {result result' : Nat → ι → Except ExpressionError (Terms α)}
    (leads : LeadsTo arith t waits result) (same : ∀ room i, result room i = result' room i) :
    LeadsTo arith t waits result' := by
  have equal : result = result' := funext fun room => funext fun i => same room i
  rw [← equal]
  exact leads

theorem valueWithin_signed (primary : Tree) (negative : Bool) (room : Nat) :
    (if negative then Tree.negative primary else primary).valueWithin arith room =
      (primary.valueWithin arith room >>= fun v => .ok (if negative then arith.neg v else v)) := by
  cases negative
  · simp only [Bool.false_eq_true, if_false]
    cases primary.valueWithin arith room <;> rfl
  · rfl

theorem yields_factor {t : Text} {e : Tree} (operand : Yields arith .operand t e) :
    Yields arith .product t e := by
  obtain ⟨primary, negative, _, rfl, leads⟩ := operand
  apply (leads.restrict fun sum => ⟨sum, none, false⟩).congr
  intro room sum
  rw [valueWithin_signed]
  cases primary.valueWithin arith room <;> cases negative <;> rfl

theorem yields_term {t : Text} {e : Tree} (product : Yields arith .product t e) :
    Yields arith .sum t e := by
  refine ⟨fun room => e.valueWithin arith room >>= fun v => .ok ⟨none, v⟩, ?_, ?_⟩
  · intro room
    dsimp only
    cases e.valueWithin arith room <;> rfl
  · exact LeadsTo.restrict product fun _ => none

theorem yields_product {s t : Text} {l r : Tree} {c : Char} {op : Operator}
    {kind : Multiplicative} (left : Yields arith .product s l) (right : Yields arith .operand t r)
    (other : isNumeric c = false)
    (moved : ∀ before offset (terms : Terms α),
      Reading.step arith ⟨before, .operator terms⟩ offset c =
        .ok ⟨before, .operand ⟨terms.sum, some (terms.last, kind), false⟩⟩)
    (joined : ∀ sum x y negative, Pending.supply arith ⟨sum, some (x, kind), negative⟩ y =
      (Tree.combine arith x (if negative then arith.neg y else y) op >>= fun v => .ok ⟨sum, v⟩)) :
    Yields arith .product (s ++ c :: t) (.binary op l r) := by
  obtain ⟨primary, negative, _, rfl, leads⟩ := right
  apply (LeadsTo.operator left leads other _ moved).congr
  intro room sum
  simp only [Tree.valueWithin, valueWithin_signed]
  cases l.valueWithin arith room with
  | error => rfl
  | ok x =>
    cases primary.valueWithin arith room with
    | error => rfl
    | ok y =>
      change Pending.supply arith ⟨sum, some (x, kind), false ^^ negative⟩ y = _
      rw [Bool.false_xor, joined]
      rfl

theorem yields_sum {s t : Text} {l r : Tree} {c : Char} {op : Operator} {kind : Additive}
    (left : Yields arith .sum s l) (right : Yields arith .product t r) (other : isNumeric c = false)
    (moved : ∀ before offset (terms : Terms α),
      Reading.step arith ⟨before, .operator terms⟩ offset c =
        .ok ⟨before, .operand ⟨some (terms.total arith, kind), none, false⟩⟩)
    (joined : ∀ x y, Tree.combine arith x y op = .ok (Terms.total arith ⟨some (x, kind), y⟩)) :
    Yields arith .sum (s ++ c :: t) (.binary op l r) := by
  obtain ⟨read, value, leads⟩ := left
  refine ⟨_, ?_, LeadsTo.operator leads right other _ moved⟩
  intro room
  simp only [Tree.valueWithin, value]
  cases read room with
  | error => rfl
  | ok terms =>
    cases r.valueWithin arith room with
    | error => rfl
    | ok y => exact joined (terms.total arith) y

/-! ## Sentences -/

theorem yields_of_derives {rank : Rank} {t : Text} {e : Tree} (derives : Derives rank t e) :
    Yields arith rank t e := by
  induction derives with
  | number numeral => exact yields_number arith numeral
  | group _ ih => exact yields_group ih
  | blankAfter _ ih => exact yields_blankAfter ih
  | primary primary ih =>
    refine ⟨_, false, signShape_of_derives primary, rfl, LeadsTo.congr ih fun room waiting => ?_⟩
    simp only [Bool.xor_false]
  | blankBefore _ ih | plus _ ih =>
    obtain ⟨primary, negative, unsigned, same, leads⟩ := ih
    exact ⟨primary, negative, unsigned, same, leads.sign id fun _ _ _ => rfl⟩
  | minus _ ih => exact yields_minus ih
  | operand _ ih => exact yields_factor ih
  | times _ _ left right =>
    exact yields_product left right rfl (fun _ _ _ => rfl) fun _ _ _ _ => rfl
  | dividedBy _ _ left right =>
    refine yields_product left right rfl (fun _ _ _ => rfl) fun sum x y negative => ?_
    simp only [Pending.supply, Tree.combine]
    generalize (if negative then arith.neg y else y) = divisor
    cases arith.isZero divisor <;> rfl
  | product _ ih => exact yields_term ih
  | add _ _ left right => exact yields_sum left right rfl (fun _ _ _ => rfl) fun _ _ => rfl
  | subtract _ _ left right => exact yields_sum left right rfl (fun _ _ _ => rfl) fun _ _ => rfl

theorem value_eq_valueWithin {t : Text} {e : Tree} (derives : Derives .sum t e) :
    value arith t = e.valueWithin arith maxDepth := by
  obtain ⟨read, value, leads⟩ : Yields arith .sum t e := yields_of_derives derives
  obtain ⟨later, reads⟩ := leads 0
  have whole := reads [] maxDepth () [] (Nat.zero_add _) stops_nil
  rw [List.append_nil] at whole
  rw [value]
  exact whole

end DeskCalculator.Expression
