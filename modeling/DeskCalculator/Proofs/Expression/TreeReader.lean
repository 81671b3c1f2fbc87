import DeskCalculator.Expression.Grammar
/-!
A reader that builds the tree of a text, one character at a time. It stands between the grammar and
the reader of values: it has the states of the latter, but it computes nothing and knows no limit
on depth, so it answers for every text whether it is a sentence.
-/
namespace DeskCalculator.Expression.Tree

def supply (pending : Pending Tree) (operand : Tree) : Terms Tree :=
  let signed := if pending.negative then operand.toggle else operand
  match pending.product with
  | none => ⟨pending.sum, signed⟩
  | some (left, .times) => ⟨pending.sum, .binary .multiply left signed⟩
  | some (left, .dividedBy) => ⟨pending.sum, .binary .divide left signed⟩

def total (terms : Terms Tree) : Tree :=
  match terms.sum with
  | none => terms.last
  | some (left, .plus) => .binary .add left terms.last
  | some (left, .minus) => .binary .subtract left terms.last

def supplyNumber (pending : Pending Tree) (literal : Text) : Option (Terms Tree) :=
  if literal.any Char.isDigit then some (supply pending (.number literal)) else none

def operandStep (enclosing : List (Pending Tree)) (pending : Pending Tree) (c : Char) :
    Option (Reading Tree) :=
  if c = ' ' ∨ c = '+' then some ⟨enclosing, .operand pending⟩
  else if c = '-' then some ⟨enclosing, .operand { pending with negative := !pending.negative }⟩
  else if c = '(' then some ⟨pending :: enclosing, .operand .empty⟩
  else if c.isDigit ∨ c = '.' then some ⟨enclosing, .number pending [c]⟩
  else none

def operatorStep (enclosing : List (Pending Tree)) (terms : Terms Tree) (c : Char) :
    Option (Reading Tree) :=
  if c = ' ' then some ⟨enclosing, .operator terms⟩
  else if c = '+' then some ⟨enclosing, .operand ⟨some (total terms, .plus), none, false⟩⟩
  else if c = '-' then some ⟨enclosing, .operand ⟨some (total terms, .minus), none, false⟩⟩
  else if c = '*' then some ⟨enclosing, .operand ⟨terms.sum, some (terms.last, .times), false⟩⟩
  else if c = '/' then some ⟨enclosing, .operand ⟨terms.sum, some (terms.last, .dividedBy), false⟩⟩
  else match enclosing with
    | [] => none
    | pending :: outer =>
      if c = ')' then some ⟨outer, .operator (supply pending (.group (total terms)))⟩ else none

def step (r : Reading Tree) (c : Char) : Option (Reading Tree) :=
  match r.phase with
  | .operand pending => operandStep r.enclosing pending c
  | .number pending literal =>
    if continues literal c then some ⟨r.enclosing, .number pending (literal ++ [c])⟩
    else do operatorStep r.enclosing (← supplyNumber pending literal) c
  | .operator terms => operatorStep r.enclosing terms c

def close (enclosing : List (Pending Tree)) (terms : Terms Tree) : Option Tree :=
  match enclosing with
  | [] => some (total terms)
  | _ :: _ => none

def finish (r : Reading Tree) : Option Tree :=
  match r.phase with
  | .operand _ => none
  | .number pending literal => do close r.enclosing (← supplyNumber pending literal)
  | .operator terms => close r.enclosing terms

def advance (r : Reading Tree) (t : Text) : Option (Reading Tree) := t.foldlM step r

def readFrom (r : Reading Tree) (t : Text) : Option Tree := (advance r t).bind finish

def ofText? (t : Text) : Option Tree := readFrom .start t

@[simp] theorem readFrom_nil (r : Reading Tree) : readFrom r [] = finish r := rfl

theorem readFrom_cons (r : Reading Tree) (c : Char) (t : Text) :
    readFrom r (c :: t) = (step r c).bind (readFrom · t) := by
  simp only [readFrom, advance, List.foldlM_cons, Option.bind_eq_bind, Option.bind_assoc]

theorem readFrom_step {r next : Reading Tree} {c : Char} (moved : step r c = some next) (t : Text) :
    readFrom r (c :: t) = readFrom next t := by
  rw [readFrom_cons, moved, Option.bind_some]

theorem readFrom_append (r : Reading Tree) (s t : Text) :
    readFrom r (s ++ t) = (advance r s).bind (readFrom · t) := by
  simp only [readFrom, advance, List.foldlM_append, Option.bind_eq_bind, Option.bind_assoc]

theorem advance_append_singleton (r : Reading Tree) (t : Text) (c : Char) :
    advance r (t ++ [c]) = (advance r t).bind (step · c) := by
  simp [advance, List.foldlM_append]

/-! What a step can do, as a relation with a case for each kind of character. -/

inductive OperandStep (enclosing : List (Pending Tree)) (pending : Pending Tree) :
    Char → Reading Tree → Prop where
  | skip {c : Char} (skipped : c = ' ' ∨ c = '+') :
      OperandStep enclosing pending c ⟨enclosing, .operand pending⟩
  | minus : OperandStep enclosing pending '-'
      ⟨enclosing, .operand { pending with negative := !pending.negative }⟩
  | openGroup : OperandStep enclosing pending '(' ⟨pending :: enclosing, .operand .empty⟩
  | number {c : Char} (starts : c.isDigit = true ∨ c = '.') :
      OperandStep enclosing pending c ⟨enclosing, .number pending [c]⟩

inductive OperatorStep : List (Pending Tree) → Terms Tree → Char → Reading Tree → Prop where
  | blank {enclosing : List (Pending Tree)} {terms : Terms Tree} :
      OperatorStep enclosing terms ' ' ⟨enclosing, .operator terms⟩
  | plus {enclosing : List (Pending Tree)} {terms : Terms Tree} :
      OperatorStep enclosing terms '+'
        ⟨enclosing, .operand ⟨some (total terms, .plus), none, false⟩⟩
  | minus {enclosing : List (Pending Tree)} {terms : Terms Tree} :
      OperatorStep enclosing terms '-'
        ⟨enclosing, .operand ⟨some (total terms, .minus), none, false⟩⟩
  | times {enclosing : List (Pending Tree)} {terms : Terms Tree} :
      OperatorStep enclosing terms '*'
        ⟨enclosing, .operand ⟨terms.sum, some (terms.last, .times), false⟩⟩
  | dividedBy {enclosing : List (Pending Tree)} {terms : Terms Tree} :
      OperatorStep enclosing terms '/'
        ⟨enclosing, .operand ⟨terms.sum, some (terms.last, .dividedBy), false⟩⟩
  | closeGroup {pending : Pending Tree} {outer : List (Pending Tree)} {terms : Terms Tree} :
      OperatorStep (pending :: outer) terms ')'
        ⟨outer, .operator (supply pending (.group (total terms)))⟩

theorem OperandStep.of_eq {enclosing : List (Pending Tree)} {pending : Pending Tree} {c : Char}
    {next : Reading Tree} (moved : operandStep enclosing pending c = some next) :
    OperandStep enclosing pending c next := by
  unfold operandStep at moved
  split at moved
  next skipped => cases moved; exact .skip skipped
  split at moved
  next minus => cases moved; subst minus; exact .minus
  split at moved
  next opened => cases moved; subst opened; exact .openGroup
  split at moved
  next starts => cases moved; exact .number starts
  next => cases moved

theorem OperatorStep.of_eq {enclosing : List (Pending Tree)} {terms : Terms Tree} {c : Char}
    {next : Reading Tree} (moved : operatorStep enclosing terms c = some next) :
    OperatorStep enclosing terms c next := by
  unfold operatorStep at moved
  split at moved
  next blank => cases moved; subst blank; exact .blank
  split at moved
  next plus => cases moved; subst plus; exact .plus
  split at moved
  next minus => cases moved; subst minus; exact .minus
  split at moved
  next times => cases moved; subst times; exact .times
  split at moved
  next divided => cases moved; subst divided; exact .dividedBy
  split at moved
  · cases moved
  · split at moved
    next closed => cases moved; subst closed; exact .closeGroup
    next => cases moved

end DeskCalculator.Expression.Tree
