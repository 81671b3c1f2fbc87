import DeskCalculator.Proofs.Expression.Numeral
import DeskCalculator.Proofs.Expression.TreeReader
/-!
The reader of trees decides the grammar: it answers for a text with a tree exactly when the grammar
gives the text that tree. So no text has two trees, and which texts are sentences can be computed.
-/
namespace DeskCalculator.Expression

open Expression.Tree (supply total step finish readFrom advance operandStep operatorStep)

/-! ## From the grammar to the reader -/

def Stops (rest : Text) : Prop := ∀ c ∈ rest.head?, isNumeric c = false

theorem stops_nil : Stops [] := by simp [Stops]

theorem stops_cons {c : Char} {rest : Text} (other : isNumeric c = false) : Stops (c :: rest) := by
  simpa [Stops] using other

theorem readFrom_literal {enclosing : List (Pending Tree)} {pending : Pending Tree} {u v : Text}
    (literal : IsLiteral (u ++ v)) (rest : Text) :
    readFrom ⟨enclosing, .number pending u⟩ (v ++ rest) =
      readFrom ⟨enclosing, .number pending (u ++ v)⟩ rest := by
  induction v generalizing u with
  | nil => simp
  | cons c v ih =>
    have moved : step ⟨enclosing, .number pending u⟩ c =
        some ⟨enclosing, .number pending (u ++ [c])⟩ := by
      simp only [step, literal.continues, if_true]
    rw [List.cons_append, Tree.readFrom_step moved, ih (by simpa using literal)]
    simp

theorem readFrom_number_cons {enclosing : List (Pending Tree)} {pending : Pending Tree}
    {literal : Text} {c : Char} (digit : literal.any Char.isDigit = true)
    (ends : ¬continues literal c = true) (t : Text) :
    readFrom ⟨enclosing, .number pending literal⟩ (c :: t) =
      readFrom ⟨enclosing, .operator (supply pending (.number literal))⟩ (c :: t) := by
  rw [Tree.readFrom_cons, Tree.readFrom_cons]
  simp [step, ends, Tree.supplyNumber, digit]

theorem readFrom_number {enclosing : List (Pending Tree)} {pending : Pending Tree} {t rest : Text}
    (digit : t.any Char.isDigit = true) (stops : Stops rest) :
    readFrom ⟨enclosing, .number pending t⟩ rest =
      readFrom ⟨enclosing, .operator (supply pending (.number t))⟩ rest := by
  cases rest with
  | nil => simp [finish, Tree.supplyNumber, digit]
  | cons c rest => exact readFrom_number_cons digit (not_continues (stops c rfl) t) rest

def Reads : Rank → Text → Tree → Prop
  | .primary, t, e | .operand, t, e => ∀ enclosing pending rest, Stops rest →
    readFrom ⟨enclosing, .operand pending⟩ (t ++ rest) =
      readFrom ⟨enclosing, .operator (supply pending e)⟩ rest
  | .product, t, e => ∀ enclosing sum rest, Stops rest →
    readFrom ⟨enclosing, .operand ⟨sum, none, false⟩⟩ (t ++ rest) =
      readFrom ⟨enclosing, .operator ⟨sum, e⟩⟩ rest
  | .sum, t, e => ∃ terms, total terms = e ∧ ∀ enclosing rest, Stops rest →
    readFrom ⟨enclosing, .operand .empty⟩ (t ++ rest) =
      readFrom ⟨enclosing, .operator terms⟩ rest

theorem readFrom_operand_literal {enclosing : List (Pending Tree)} {pending : Pending Tree}
    {t : Text} (literal : IsLiteral t) (nonempty : t ≠ []) (rest : Text) :
    readFrom ⟨enclosing, .operand pending⟩ (t ++ rest) =
      readFrom ⟨enclosing, .number pending t⟩ rest := by
  cases t with
  | nil => exact absurd rfl nonempty
  | cons c t =>
    have numeric := (isNumeric_iff c).1 (literal.numeric c (by simp))
    have signless := signless_of_numeric numeric
    have moved : step ⟨enclosing, .operand pending⟩ c =
        some ⟨enclosing, .number pending [c]⟩ := by
      simp only [step, operandStep, if_neg signless.1, if_neg signless.2.1, if_neg signless.2.2,
        if_pos numeric]
    rw [List.cons_append, Tree.readFrom_step moved, readFrom_literal literal,
      List.singleton_append]

theorem reads_number {t : Text} (numeral : IsNumeral t) : Reads .primary t (.number t) := by
  intro enclosing pending rest stops
  obtain ⟨literal, digit⟩ := (isNumeral_iff t).1 numeral
  have nonempty : t ≠ [] := by
    rintro rfl
    simp at digit
  rw [readFrom_operand_literal literal nonempty, readFrom_number digit stops]

theorem reads_group {t : Text} {e : Tree} (inner : Reads .sum t e) :
    Reads .primary ('(' :: t ++ [')']) (.group e) := by
  intro enclosing pending rest _
  obtain ⟨terms, rfl, reads⟩ := inner
  have shape : '(' :: t ++ [')'] ++ rest = '(' :: (t ++ ')' :: rest) := by simp
  have closes : Stops (')' :: rest) := stops_cons (by decide)
  have opened : step ⟨enclosing, .operand pending⟩ '(' =
      some ⟨pending :: enclosing, .operand .empty⟩ := rfl
  rw [shape, Tree.readFrom_step opened, reads (pending :: enclosing) (')' :: rest) closes]
  exact Tree.readFrom_step (by rfl) rest

theorem reads_blankAfter {t : Text} {e : Tree} (primary : Reads .primary t e) :
    Reads .primary (t ++ [' ']) e := by
  intro enclosing pending rest _
  rw [List.append_assoc, List.singleton_append,
    primary enclosing pending (' ' :: rest) (stops_cons (by decide))]
  exact Tree.readFrom_step (by rfl) rest

theorem supply_minus (pending : Pending Tree) {e : Tree} (involutive : e.toggle.toggle = e) :
    supply { pending with negative := !pending.negative } e = supply pending e.toggle := by
  cases sign : pending.negative <;> simp [supply, sign, involutive]

theorem reads_minus {t : Text} {e : Tree} (operand : Reads .operand t e)
    (involutive : e.toggle.toggle = e) : Reads .operand ('-' :: t) e.toggle := by
  intro enclosing pending rest stops
  rw [List.cons_append, ← supply_minus pending involutive, ← operand enclosing _ rest stops]
  exact Tree.readFrom_step (by rfl) _

theorem reads_product {s t : Text} {l r : Tree} {c : Char} {op : Operator}
    {kind : Multiplicative} (left : Reads .product s l) (right : Reads .operand t r)
    (other : isNumeric c = false)
    (moved : ∀ enclosing sum, step ⟨enclosing, .operator ⟨sum, l⟩⟩ c =
      some ⟨enclosing, .operand ⟨sum, some (l, kind), false⟩⟩)
    (joined : ∀ sum, supply ⟨sum, some (l, kind), false⟩ r = ⟨sum, .binary op l r⟩) :
    Reads .product (s ++ c :: t) (.binary op l r) := by
  intro enclosing sum rest stops
  rw [List.append_assoc, List.cons_append, left enclosing sum _ (stops_cons other),
    Tree.readFrom_step (moved enclosing sum), right enclosing _ rest stops, joined]

theorem reads_sum {s t : Text} {l r : Tree} {c : Char} {op : Operator} {kind : Additive}
    (left : Reads .sum s l) (right : Reads .product t r) (other : isNumeric c = false)
    (moved : ∀ enclosing terms, step ⟨enclosing, .operator terms⟩ c =
      some ⟨enclosing, .operand ⟨some (total terms, kind), none, false⟩⟩)
    (joined : total ⟨some (l, kind), r⟩ = .binary op l r) :
    Reads .sum (s ++ c :: t) (.binary op l r) := by
  obtain ⟨terms, rfl, reads⟩ := left
  refine ⟨⟨some (total terms, kind), r⟩, joined, ?_⟩
  intro enclosing rest stops
  rw [List.append_assoc, List.cons_append, reads enclosing _ (stops_cons other),
    Tree.readFrom_step (moved enclosing terms), right enclosing _ rest stops]

def SignShape : Rank → Tree → Prop
  | .primary, e => e.toggle = .negative e
  | .operand, e => e.toggle.toggle = e
  | _, _ => True

theorem signShape_of_derives {rank : Rank} {t : Text} {e : Tree} (derives : Derives rank t e) :
    SignShape rank e := by
  induction derives with
  | number => rfl
  | group => rfl
  | blankAfter _ ih => exact ih
  | primary _ ih => exact (congrArg Tree.toggle ih : _)
  | blankBefore _ ih => exact ih
  | plus _ ih => exact ih
  | minus _ ih => exact congrArg Tree.toggle ih
  | operand | times | dividedBy | product | add | subtract => trivial

/-- The reader reads what the grammar derives. -/
theorem reads_of_derives {rank : Rank} {t : Text} {e : Tree} (derives : Derives rank t e) :
    Reads rank t e := by
  induction derives with
  | number numeral => exact reads_number numeral
  | group _ ih => exact reads_group ih
  | blankAfter _ ih => exact reads_blankAfter ih
  | primary _ ih => exact ih
  | blankBefore _ ih | plus _ ih =>
    intro enclosing pending rest stops
    rw [← ih enclosing pending rest stops, List.cons_append]
    exact Tree.readFrom_step (by rfl) _
  | minus operand ih => exact reads_minus ih (signShape_of_derives operand)
  | operand _ ih => exact fun enclosing sum rest stops => ih enclosing _ rest stops
  | times _ _ left right =>
    exact reads_product left right (by decide) (fun _ _ => rfl) (fun _ => rfl)
  | dividedBy _ _ left right =>
    exact reads_product left right (by decide) (fun _ _ => rfl) (fun _ => rfl)
  | product _ ih => exact ⟨⟨none, _⟩, rfl, fun enclosing rest stops => ih enclosing none rest stops⟩
  | add _ _ left right => exact reads_sum left right (by decide) (fun _ _ => rfl) rfl
  | subtract _ _ left right => exact reads_sum left right (by decide) (fun _ _ => rfl) rfl

theorem ofText?_of_derives {t : Text} {e : Tree} (derives : Derives .sum t e) :
    Tree.ofText? t = some e := by
  obtain ⟨terms, rfl, reads⟩ := reads_of_derives derives
  have whole := reads [] [] stops_nil
  rwa [List.append_nil] at whole

theorem Derives.unique {t : Text} {e f : Tree} (first : Derives .sum t e)
    (second : Derives .sum t f) : e = f :=
  Option.some.inj ((ofText?_of_derives first).symm.trans (ofText?_of_derives second))

end DeskCalculator.Expression
