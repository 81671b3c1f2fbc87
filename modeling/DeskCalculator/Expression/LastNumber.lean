import DeskCalculator.Text.Basic
import DeskCalculator.Operator
/-!
The number at the end of an expression, found from its last digit backwards on any text. It is kept
as a division of the text into four parts, so edits of the number put the parts together again.
-/
namespace DeskCalculator

namespace Expression

def isDelimiter (c : Char) : Bool := isOperator c || c == '(' || c == ')'

def currentRun (t : Text) : Text := (t.reverse.takeWhile (!isDelimiter ·)).reverse

def splitDigits (pointed : Bool) : Text → Text × Text
  | [] => ([], [])
  | c :: rest =>
    if c.isDigit then
      let (digits, others) := splitDigits pointed rest
      (c :: digits, others)
    else if c = '.' ∧ pointed = false then
      let (digits, others) := splitDigits true rest
      (c :: digits, others)
    else ([], c :: rest)

/-- Whether a sign belongs to the number after it, given what stands before the sign, the nearest
character first. -/
def isUnaryContext : Text → Bool
  | [] => true
  | c :: _ => isOperator c || c == '('

def splitSign : Text → Option Char × Text
  | [] => (none, [])
  | c :: rest =>
    if (c = '+' ∨ c = '-') ∧ isUnaryContext rest = true then (some c, rest) else (none, c :: rest)

end Expression

structure LastNumber where
  before : Text
  sign : Option Char
  digits : Text
  after : Text
  deriving DecidableEq

namespace LastNumber

/-- The number at the end of `upTo`, which `after` follows; both run backwards. -/
def ofReversed (upTo after : Text) : LastNumber :=
  let digits := Expression.splitDigits false upTo
  let sign := Expression.splitSign digits.2
  ⟨sign.2.reverse, sign.1, digits.1.reverse, after.reverse⟩

def find? (t : Text) : Option LastNumber :=
  let upTo := t.reverse.dropWhile (!·.isDigit)
  if upTo = [] then none else some (ofReversed upTo (t.reverse.takeWhile (!·.isDigit)))

def atEnd? (t : Text) : Option LastNumber := (find? t).filter (·.after.isEmpty)

def text (n : LastNumber) : Text := n.before ++ n.sign.toList ++ n.digits ++ n.after

def start (n : LastNumber) : Nat := Text.byteSize n.before

def digitsStart (n : LastNumber) : Nat := n.start + Text.byteSize n.sign.toList

def stop (n : LastNumber) : Nat := n.digitsStart + Text.byteSize n.digits

def negated (n : LastNumber) : Text :=
  n.before ++ (if n.sign = some '-' then n.digits else '-' :: n.digits) ++ n.after

def withDigits (n : LastNumber) (digits : Text) : Text :=
  n.before ++ n.sign.toList ++ digits ++ n.after

end LastNumber

namespace Expression

theorem splitDigits_append (pointed : Bool) (t : Text) :
    (splitDigits pointed t).1 ++ (splitDigits pointed t).2 = t := by
  induction t generalizing pointed with
  | nil => rfl
  | cons c rest ih =>
    unfold splitDigits
    split
    · simp [ih]
    · split
      · simp [ih]
      · rfl

theorem splitSign_append (t : Text) : (splitSign t).1.toList ++ (splitSign t).2 = t := by
  cases t with
  | nil => rfl
  | cons c rest =>
    rw [splitSign]
    split <;> rfl

end Expression

namespace LastNumber

theorem text_ofReversed (upTo after : Text) :
    (ofReversed upTo after).text = upTo.reverse ++ after.reverse := by
  have digits := Expression.splitDigits_append false upTo
  have sign := Expression.splitSign_append (Expression.splitDigits false upTo).2
  simp only [ofReversed, text]
  generalize Expression.splitDigits false upTo = parts at digits sign
  obtain ⟨number, others⟩ := parts
  generalize Expression.splitSign others = signed at sign
  obtain ⟨mark, before⟩ := signed
  subst digits
  subst sign
  cases mark <;> simp

end LastNumber

end DeskCalculator
