import DeskCalculator.Decimal.Basic
import DeskCalculator.Expression.Normal
/-!
Reading an expression, one character at a time and in one pass, into its value. The state holds the
operators whose right operand is still due, level by level, so that the value is known as soon as
the text ends and an error is known at the character that makes it. The reader works over any
arithmetic; the calculator gives it doubles.
-/
namespace DeskCalculator

/-- Operations on the values of an expression. Division is only asked for where `isZero` does not
hold of the divisor. -/
structure Arithmetic (α : Type) where
  literal : Decimal → α
  add : α → α → α
  sub : α → α → α
  mul : α → α → α
  div : α → α → α
  neg : α → α
  isZero : α → Bool

def Binary64.arithmetic : Arithmetic Binary64 where
  literal := Decimal.toBinary64
  add := Binary64.add
  sub := Binary64.sub
  mul := Binary64.mul
  div := Binary64.div
  neg := Binary64.neg
  isZero := Binary64.isZero

inductive ExpressionError where
  | foreignChar (c : Char)
  | unexpectedChar (found : Char) (offset : Nat)
  | unexpectedEnd
  | trailingInput (offset : Nat)
  | malformedNumber (literal : Text)
  | nestingTooDeep (limit : Nat)
  | divisionByZero
  | notFinite
  deriving DecidableEq

namespace Expression

def maxDepth : Nat := 256

inductive Additive where
  | plus
  | minus
  deriving DecidableEq

inductive Multiplicative where
  | times
  | dividedBy
  deriving DecidableEq

/-- What waits, in one pair of parentheses, for the operand that is due: the sum of the terms before
it, the product of the factors before it in its term, and whether its signs so far negate it. -/
structure Pending (α : Type) where
  sum : Option (α × Additive)
  product : Option (α × Multiplicative)
  negative : Bool
  deriving DecidableEq

def Pending.empty {α : Type} : Pending α := ⟨none, none, false⟩

structure Terms (α : Type) where
  sum : Option (α × Additive)
  last : α
  deriving DecidableEq

inductive Phase (α : Type) where
  | operand (pending : Pending α)
  | number (pending : Pending α) (literal : Text)
  | operator (terms : Terms α)
  deriving DecidableEq

structure Reading (α : Type) where
  enclosing : List (Pending α)
  phase : Phase α
  deriving DecidableEq

variable {α : Type} (arith : Arithmetic α)

def Terms.total (terms : Terms α) : α :=
  match terms.sum with
  | none => terms.last
  | some (left, .plus) => arith.add left terms.last
  | some (left, .minus) => arith.sub left terms.last

def Pending.supply (pending : Pending α) (value : α) : Except ExpressionError (Terms α) :=
  let operand := if pending.negative then arith.neg value else value
  match pending.product with
  | none => .ok ⟨pending.sum, operand⟩
  | some (left, .times) => .ok ⟨pending.sum, arith.mul left operand⟩
  | some (left, .dividedBy) =>
    if arith.isZero operand then .error .divisionByZero
    else .ok ⟨pending.sum, arith.div left operand⟩

def literalValue (literal : Text) : Except ExpressionError α :=
  match Decimal.ofText? literal with
  | some d => .ok (arith.literal d)
  | none => .error (.malformedNumber literal)

def continues (literal : Text) (c : Char) : Bool :=
  c.isDigit || (c == '.' && !literal.contains '.')

def Pending.supplyNumber (pending : Pending α) (literal : Text) :
    Except ExpressionError (Terms α) := do
  pending.supply arith (← literalValue arith literal)

namespace Reading

def start : Reading α := ⟨[], .operand .empty⟩

def operandStep (enclosing : List (Pending α)) (pending : Pending α) (offset : Nat) (c : Char) :
    Except ExpressionError (Reading α) :=
  if c = ' ' ∨ c = '+' then .ok ⟨enclosing, .operand pending⟩
  else if c = '-' then .ok ⟨enclosing, .operand { pending with negative := !pending.negative }⟩
  else if c = '(' then
    if enclosing.length < maxDepth then .ok ⟨pending :: enclosing, .operand .empty⟩
    else .error (.nestingTooDeep maxDepth)
  else if c.isDigit ∨ c = '.' then .ok ⟨enclosing, .number pending [c]⟩
  else .error (.unexpectedChar c offset)

def operatorStep (enclosing : List (Pending α)) (terms : Terms α) (offset : Nat) (c : Char) :
    Except ExpressionError (Reading α) :=
  if c = ' ' then .ok ⟨enclosing, .operator terms⟩
  else if c = '+' then .ok ⟨enclosing, .operand ⟨some (terms.total arith, .plus), none, false⟩⟩
  else if c = '-' then .ok ⟨enclosing, .operand ⟨some (terms.total arith, .minus), none, false⟩⟩
  else if c = '*' then .ok ⟨enclosing, .operand ⟨terms.sum, some (terms.last, .times), false⟩⟩
  else if c = '/' then .ok ⟨enclosing, .operand ⟨terms.sum, some (terms.last, .dividedBy), false⟩⟩
  else match enclosing with
    | [] => .error (.trailingInput offset)
    | pending :: outer =>
      if c = ')' then do .ok ⟨outer, .operator (← pending.supply arith (terms.total arith))⟩
      else .error (.unexpectedChar c offset)

/-- One character. A number ends where a character does not continue it, and its value is supplied
before that character is looked at. -/
def step (r : Reading α) (offset : Nat) (c : Char) : Except ExpressionError (Reading α) :=
  match r.phase with
  | .operand pending => operandStep r.enclosing pending offset c
  | .number pending literal =>
    if continues literal c then .ok ⟨r.enclosing, .number pending (literal ++ [c])⟩
    else do operatorStep arith r.enclosing (← pending.supplyNumber arith literal) offset c
  | .operator terms => operatorStep arith r.enclosing terms offset c

def close (enclosing : List (Pending α)) (terms : Terms α) : Except ExpressionError α :=
  match enclosing with
  | [] => .ok (terms.total arith)
  | _ :: _ => .error .unexpectedEnd

def finish (r : Reading α) : Except ExpressionError α :=
  match r.phase with
  | .operand _ => .error .unexpectedEnd
  | .number pending literal => do close arith r.enclosing (← pending.supplyNumber arith literal)
  | .operator terms => close arith r.enclosing terms

def run (r : Reading α) (offset : Nat) : Text → Except ExpressionError α
  | [] => r.finish arith
  | c :: rest => do (← r.step arith offset c).run (offset + 1) rest

end Reading

def value (t : Text) : Except ExpressionError α := Reading.start.run arith 0 t

end Expression

end DeskCalculator
