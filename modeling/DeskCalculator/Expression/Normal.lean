import DeskCalculator.Text.Basic
import DeskCalculator.Operator
/-!
The alphabet of expressions, and the rewriting that a text goes through before it is read: percent
signs become divisions by a hundred and doubled signs collapse.
-/
namespace DeskCalculator.Expression

def isAllowed (c : Char) : Bool :=
  c.isDigit || isOperator c || c == '(' || c == ')' || c == '.' || c == ' '

def expandPercent (t : Text) : Text :=
  t.flatMap fun c => if c = '%' then ['/', '1', '0', '0'] else [c]

def collapsePair (first second merged : Char) : Text → Text
  | a :: b :: rest =>
    if a = first ∧ b = second then merged :: collapsePair first second merged rest
    else a :: collapsePair first second merged (b :: rest)
  | t => t

/-- The four passes over doubled signs, in their order. A pass may leave or make pairs that a later
one takes; after the last, some may remain. -/
def collapseSigns (t : Text) : Text :=
  collapsePair '+' '+' '+' (collapsePair '-' '+' '-' (collapsePair '+' '-' '-'
    (collapsePair '-' '-' '+' t)))

def normalize (t : Text) : Text := collapseSigns (expandPercent t)

def firstForeign? (t : Text) : Option Char := t.find? (!isAllowed ·)

example : normalize "5--3".toList = "5+3".toList := by decide
example : normalize "1-+-2".toList = "1--2".toList := by decide
example : normalize "50%".toList = "50/100".toList := by decide

end DeskCalculator.Expression
