import DeskCalculator.Evaluator.Basic
import DeskCalculator.Expression.LastNumber
/-!
The engine edits an expression one operation at a time and keeps, beside the text, what the display
shows. An operation that does not apply leaves everything as it was.
-/
namespace DeskCalculator

inductive InputKind where
  | none
  | digit
  | operator
  | equals
  deriving DecidableEq, Repr

/-- An expression under edit. Open parentheses and the operator flag follow the text; the readout
is the text, a zero for none, or the marker of the latest failure. -/
structure Engine where
  evaluator : Evaluator
  expression : Text
  openGroups : Nat
  operandDue : Bool
  latest : InputKind
  readout : Text
  deriving DecidableEq

inductive Operation where
  | digit (c : Char)
  | operator (op : Operator)
  | negate
  | deleteLast
  | clear
  | parenthesis
  | openGroup
  | closeGroup
  | percent
  | squareRoot
  | square
  | equals
  deriving DecidableEq, Repr

namespace Engine

def initial (evaluator : Evaluator) : Engine := ⟨evaluator, [], 0, false, .none, ['0']⟩

def shown (e : Engine) : Engine :=
  { e with readout := if e.expression = [] then ['0'] else e.expression }

def emptied (e : Engine) : Engine :=
  { e with expression := [], openGroups := 0, operandDue := false }

def failed (e : Engine) : Engine :=
  { e.emptied with latest := .equals, readout := e.evaluator.errorMarker }

def groupStep (opened : Nat) (c : Char) : Nat :=
  if c = '(' then opened + 1 else if c = ')' then opened - 1 else opened

def countOpenGroups (t : Text) : Nat := t.foldl groupStep 0

def isOperandDue (t : Text) : Bool := t.endsWith fun c => isOperator c || c == '('

/-- A digit or point goes to the number being typed. After a result or a failure the expression
starts anew; a second point in a number is dropped, and a point that starts one gets a zero. -/
def typeDigit (e : Engine) (c : Char) : Engine :=
  if c.isDigit || c == '.' then
    let e := if e.latest = .equals then e.emptied else e
    let run := Expression.currentRun e.expression
    if c = '.' ∧ run.contains '.' then e
    else
      let lead : Text := if c = '.' ∧ run = [] then ['0'] else []
      shown { e with
        expression := e.expression ++ lead ++ [c], operandDue := false, latest := .digit }
  else e

def endsWithSign (t : Text) : Bool := t.dropLast.isEmpty || Text.endsWith (· == '(') t.dropLast

/-- The text after an operator key, if the key applies: only a minus may start an expression or a
group, and an operator takes the place of the one before it. -/
def withOperator? (e : Engine) (op : Operator) : Option Text :=
  if e.expression.isEmpty || e.expression.endsWith (· == '(') then
    if op = .subtract then some (e.expression ++ [op.symbol]) else none
  else if e.operandDue && e.expression.endsWith isOperator then
    if endsWithSign e.expression ∧ op ≠ .subtract then none
    else some (e.expression.dropLast ++ [op.symbol])
  else some (e.expression ++ [op.symbol])

def typeOperator (e : Engine) (op : Operator) : Engine :=
  match e.withOperator? op with
  | none => e
  | some t => shown { e with expression := t, operandDue := true, latest := .operator }

def negate (e : Engine) : Engine :=
  match LastNumber.find? e.expression with
  | none => e
  | some n => shown { e with expression := n.negated }

def deleteLast (e : Engine) : Engine :=
  if e.expression = [] then e
  else
    let t := e.expression.dropLast
    shown { e with expression := t, openGroups := countOpenGroups t, operandDue := isOperandDue t }

def clear (e : Engine) : Engine := shown { e.emptied with latest := .none }

def openGroup (e : Engine) : Engine :=
  shown { e with
    expression := e.expression ++ ['('], openGroups := e.openGroups + 1, operandDue := true }

def closeGroup (e : Engine) : Engine :=
  shown { e with
    expression := e.expression ++ [')'], openGroups := e.openGroups - 1, operandDue := false }

def parenthesis (e : Engine) : Engine :=
  if e.openGroups = 0 ∨ e.expression.endsWith (· == '(') = true ∨ e.operandDue = true then
    e.openGroup
  else e.closeGroup

def percent (e : Engine) : Engine :=
  match LastNumber.atEnd? e.expression with
  | none => e
  | some n =>
    match Decimal.ofText? n.digits with
    | none => e
    | some d =>
      if d.toBinary64.isFinite then
        let hundredth := d.toBinary64.div (Binary64.ofNat 100)
        shown { e with expression := n.withDigits hundredth.display }
      else e

def value? (e : Engine) : Option Binary64 :=
  if e.expression = [] then none else (e.evaluator.valueOf e.expression).toOption

def replaceWith (e : Engine) (x : Binary64) : Engine :=
  shown { e with expression := x.display, openGroups := 0, operandDue := false }

def squareRoot (e : Engine) : Engine :=
  match e.value? with
  | none => e
  | some v => if v.isBelowZero then e.failed else e.replaceWith v.sqrt

def square (e : Engine) : Engine :=
  match e.value? with
  | none => e
  | some v => if (v.mul v).isFinite then e.replaceWith (v.mul v) else e.failed

def closed (e : Engine) : Text := e.expression ++ List.replicate e.openGroups ')'

def equals (e : Engine) : Engine :=
  if e.expression = [] then e
  else match e.evaluator.outcome e.closed with
    | .success _ v => { e.replaceWith v with latest := .equals }
    | .failure _ _ => e.failed

def apply (e : Engine) : Operation → Engine
  | .digit c => e.typeDigit c
  | .operator op => e.typeOperator op
  | .negate => e.negate
  | .deleteLast => e.deleteLast
  | .clear => e.clear
  | .parenthesis => e.parenthesis
  | .openGroup => e.openGroup
  | .closeGroup => e.closeGroup
  | .percent => e.percent
  | .squareRoot => e.squareRoot
  | .square => e.square
  | .equals => e.equals

def run (e : Engine) (operations : List Operation) : Engine := operations.foldl apply e

end Engine

end DeskCalculator
