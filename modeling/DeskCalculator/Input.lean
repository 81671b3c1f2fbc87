import DeskCalculator.Engine
import DeskCalculator.Text.Quoted
/-!
What a user can do to the calculator: digits, operators, parentheses and named buttons, with the
labels that buttons are known by.
-/
namespace DeskCalculator

inductive Button where
  | clearEntry
  | clear
  | delete
  | parenthesis
  | negate
  | percent
  | squareRoot
  | square
  | equals
  deriving DecidableEq, Repr

structure UnknownButton where
  label : Text
  deriving DecidableEq, Repr

def UnknownButton.message (u : UnknownButton) : Text :=
  "unknown button: ".toList ++ Text.quoted '"' u.label

namespace Button

def all : List Button :=
  [clearEntry, clear, delete, parenthesis, negate, percent, squareRoot, square, equals]

def name : Button → Text
  | clearEntry => "clear-entry".toList
  | clear => "clear-all".toList
  | delete => "delete".toList
  | parenthesis => "parenthesis".toList
  | negate => "toggle-sign".toList
  | percent => "percent".toList
  | squareRoot => "square-root".toList
  | square => "square".toList
  | equals => "equals".toList

def shortNames : Button → List Text
  | clearEntry => ["ce".toList]
  | clear => ["c".toList]
  | delete => ["del".toList]
  | parenthesis => ["()".toList]
  | negate => ["+/-".toList]
  | percent => ["%".toList]
  | squareRoot => ["sqrt".toList]
  | square => ["sqr".toList]
  | equals => ["=".toList, "equal".toList]

/-- The button with a name, full or short, in letters of either case and with white space around it.
Only letters of ASCII are folded: among all others, only the Kelvin sign folds to one of them, and
no name has a k. -/
def ofName? (t : Text) : Option Button :=
  let folded := (Text.trim t).map Char.toLower
  all.find? fun b => b.name == folded || b.shortNames.contains folded

def ofName (t : Text) : Except UnknownButton Button :=
  match ofName? t with
  | some b => .ok b
  | none => .error ⟨t⟩

def operation : Button → Operation
  | clearEntry => .deleteLast
  | clear => .clear
  | delete => .deleteLast
  | parenthesis => .parenthesis
  | negate => .negate
  | percent => .percent
  | squareRoot => .squareRoot
  | square => .square
  | equals => .equals

example : ofName? " SQRT ".toList = some squareRoot := by decide
example : ofName? "cube".toList = none := by decide

end Button

inductive Input where
  | digit (c : Char)
  | operator (op : Operator)
  | button (b : Button)
  | openGroup
  | closeGroup
  deriving DecidableEq, Repr

namespace Input

def ofSymbol? : Text → Option Input
  | [c] =>
    if c.isDigit || c == '.' then some (.digit c) else (Operator.ofChar? c).map .operator
  | _ => none

def ofButton (label : Text) : Except UnknownButton Input :=
  let label := Text.trim label
  match ofSymbol? label with
  | some i => .ok i
  | none => (Button.ofName label).map .button

def operation : Input → Operation
  | digit c => .digit c
  | operator op => .operator op
  | button b => b.operation
  | openGroup => .openGroup
  | closeGroup => .closeGroup

end Input

end DeskCalculator
