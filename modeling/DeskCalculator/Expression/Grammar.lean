import DeskCalculator.Expression.Reader
/-!
The grammar of expressions, apart from how they are read: which texts are sentences, the tree of
each, and the value of a tree.
-/
namespace DeskCalculator.Expression

inductive Tree where
  | number (literal : Text)
  | group (inner : Tree)
  | negative (operand : Tree)
  | binary (op : Operator) (left right : Tree)
  deriving DecidableEq, Repr

namespace Tree

def depth : Tree → Nat
  | number _ => 0
  | group inner => inner.depth + 1
  | negative operand => operand.depth
  | binary _ left right => max left.depth right.depth

def toggle : Tree → Tree
  | negative operand => operand
  | operand => negative operand

def combine {α : Type} (arith : Arithmetic α) (left right : α) : Operator → Except ExpressionError α
  | .add => .ok (arith.add left right)
  | .subtract => .ok (arith.sub left right)
  | .multiply => .ok (arith.mul left right)
  | .divide => if arith.isZero right then .error .divisionByZero else .ok (arith.div left right)

def value {α : Type} (arith : Arithmetic α) : Tree → Except ExpressionError α
  | number literal => literalValue arith literal
  | group inner => inner.value arith
  | negative operand => do .ok (arith.neg (← operand.value arith))
  | binary op left right => do combine arith (← left.value arith) (← right.value arith) op

end Tree

def IsDigits (t : Text) : Prop := t ≠ [] ∧ ∀ c ∈ t, c.isDigit = true

inductive IsNumeral : Text → Prop where
  | whole {a : Text} (digits : IsDigits a) : IsNumeral a
  | pointAfter {a : Text} (digits : IsDigits a) : IsNumeral (a ++ ['.'])
  | pointBetween {a b : Text} (before : IsDigits a) (after : IsDigits b) : IsNumeral (a ++ '.' :: b)
  | pointBefore {b : Text} (digits : IsDigits b) : IsNumeral ('.' :: b)

inductive Rank where
  | sum
  | product
  | operand
  | primary
  deriving DecidableEq

/-- The texts of each rank with their trees. Blanks may stand before an operand, between its signs,
and after a primary. -/
inductive Derives : Rank → Text → Tree → Prop where
  | number {t : Text} (numeral : IsNumeral t) : Derives .primary t (.number t)
  | group {t : Text} {e : Tree} (inner : Derives .sum t e) :
      Derives .primary ('(' :: t ++ [')']) (.group e)
  | blankAfter {t : Text} {e : Tree} (primary : Derives .primary t e) :
      Derives .primary (t ++ [' ']) e
  | primary {t : Text} {e : Tree} (primary : Derives .primary t e) : Derives .operand t e
  | blankBefore {t : Text} {e : Tree} (operand : Derives .operand t e) :
      Derives .operand (' ' :: t) e
  | plus {t : Text} {e : Tree} (operand : Derives .operand t e) : Derives .operand ('+' :: t) e
  | minus {t : Text} {e : Tree} (operand : Derives .operand t e) :
      Derives .operand ('-' :: t) e.toggle
  | operand {t : Text} {e : Tree} (operand : Derives .operand t e) : Derives .product t e
  | times {s t : Text} {l r : Tree} (left : Derives .product s l) (right : Derives .operand t r) :
      Derives .product (s ++ '*' :: t) (.binary .multiply l r)
  | dividedBy {s t : Text} {l r : Tree} (left : Derives .product s l)
      (right : Derives .operand t r) :
      Derives .product (s ++ '/' :: t) (.binary .divide l r)
  | product {t : Text} {e : Tree} (product : Derives .product t e) : Derives .sum t e
  | add {s t : Text} {l r : Tree} (left : Derives .sum s l) (right : Derives .product t r) :
      Derives .sum (s ++ '+' :: t) (.binary .add l r)
  | subtract {s t : Text} {l r : Tree} (left : Derives .sum s l) (right : Derives .product t r) :
      Derives .sum (s ++ '-' :: t) (.binary .subtract l r)

def IsSentence (t : Text) : Prop := ∃ e, Derives .sum t e

end DeskCalculator.Expression
