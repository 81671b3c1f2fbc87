import DeskCalculator.Input
/-!
The keyboard: key events, the characters that a terminal sends for them, the inputs bound to them,
and the legend that names the keys.
-/
namespace DeskCalculator

inductive KeyCode where
  | char (c : Char)
  | enter
  | backspace
  | delete
  | escape
  | other (name : Text)
  deriving DecidableEq, Repr

structure Modifiers where
  shift : Bool := false
  control : Bool := false
  alt : Bool := false
  super : Bool := false
  hyper : Bool := false
  metaKey : Bool := false
  deriving DecidableEq, Repr

def Modifiers.isEmpty (m : Modifiers) : Bool :=
  !(m.shift || m.control || m.alt || m.super || m.hyper || m.metaKey)

inductive KeyEventKind where
  | press
  | hold
  | release
  deriving DecidableEq, Repr

structure KeyEvent where
  code : KeyCode
  modifiers : Modifiers := {}
  kind : KeyEventKind := .press
  deriving DecidableEq, Repr

def KeyEvent.ofChar (c : Char) : KeyEvent :=
  if c = '\n' ∨ c = '\r' then { code := .enter }
  else if c = '\t' then { code := .other "Tab".toList }
  else if c = '\x08' ∨ c = '\x7f' then { code := .backspace }
  else if c = '\x1b' then { code := .escape }
  else if c.toNat < 0x20 then
    { code := .char (Char.ofNat (c.toNat + 0x60)), modifiers := { control := true } }
  else { code := .char c }

def KeyCode.input? : KeyCode → Option Input
  | .char c =>
    if c.isDigit || c == '.' then some (.digit c)
    else if c = '(' then some .openGroup
    else if c = ')' then some .closeGroup
    else if c = '=' then some (.button .equals)
    else if c = '%' then some (.button .percent)
    else if c = 'p' ∨ c = 'P' then some (.button .parenthesis)
    else if c = 'n' ∨ c = 'N' then some (.button .negate)
    else if c = 'r' ∨ c = 'R' then some (.button .squareRoot)
    else if c = 's' ∨ c = 'S' then some (.button .square)
    else (Operator.ofChar? c).map .operator
  | .enter => some (.button .equals)
  | .backspace => some (.button .delete)
  | .delete => some (.button .clearEntry)
  | .escape => some (.button .clear)
  | .other _ => none

def KeyEvent.input? (k : KeyEvent) : Option Input :=
  if k.kind = .release ∨ k.modifiers.control = true ∨ k.modifiers.alt = true then none
  else k.code.input?

def KeyEvent.isQuit (k : KeyEvent) : Bool :=
  k.kind != .release &&
    (k.code == .char 'q' && k.modifiers.isEmpty || k.code == .char 'c' && k.modifiers.control)

def keyLegend : List (Text × Text) := [
  ("Enter/=".toList, "equals".toList),
  ("Bksp".toList, "delete".toList),
  ("Del".toList, "clear entry".toList),
  ("Esc".toList, "clear all".toList),
  ("p".toList, "( )".toList),
  ("n".toList, "+/-".toList),
  ("%".toList, "percent".toList),
  ("r".toList, "√".toList),
  ("s".toList, "x²".toList),
  ("q".toList, "quit".toList)]

end DeskCalculator
