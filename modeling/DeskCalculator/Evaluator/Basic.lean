import DeskCalculator.Decimal.Shortest
import DeskCalculator.Expression.Reader
import DeskCalculator.Text.Quoted
/-!
The evaluator: a text is normalized, checked, read and rounded, and what cannot be evaluated is
shown as a marker.
-/
namespace DeskCalculator

namespace ExpressionError

def message : ExpressionError → Text
  | foreignChar c => "disallowed character ".toList ++ Text.quoted '\'' [c]
  | unexpectedChar found offset =>
    "unexpected character ".toList ++ Text.quoted '\'' [found] ++ " at offset ".toList ++
      Nat.toDigits 10 offset
  | unexpectedEnd => "unexpected end of expression".toList
  | trailingInput offset => "trailing input at offset ".toList ++ Nat.toDigits 10 offset
  | malformedNumber literal => "invalid number literal ".toList ++ Text.quoted '"' literal
  | nestingTooDeep limit =>
    "parentheses nested deeper than ".toList ++ Nat.toDigits 10 limit ++ " levels".toList
  | divisionByZero => "division by zero".toList
  | notFinite => "result is not a finite number".toList

end ExpressionError

/-- The value with a nudge of 2^-52 added, rounded to a number of decimals, a half going away from
zero. The nudge lifts values that lie just below a half; values too large to be scaled have no
decimals to round. -/
def Binary64.roundDecimals (places : Int) (x : Binary64) : Binary64 :=
  let factor := tenTo places
  let scaled := mul (add x epsilon) factor
  if scaled.isFinite then div (round scaled) factor else x

structure Evaluator where
  errorMarker : Text
  decimalPlaces : UInt32
  deriving DecidableEq

inductive Outcome where
  | success (expression : Text) (value : Binary64)
  | failure (expression : Text) (marker : Text)
  deriving DecidableEq

namespace Outcome

def expression : Outcome → Text
  | success e _ => e
  | failure e _ => e

def isSuccess : Outcome → Bool
  | success .. => true
  | failure .. => false

def display : Outcome → Text
  | success _ v => v.display
  | failure _ m => m

def value? : Outcome → Option Binary64
  | success _ v => some v
  | failure .. => none

end Outcome

namespace Evaluator

def defaultErrorMarker : Text := "Error".toList

def defaultDecimalPlaces : UInt32 := 10

def default : Evaluator := ⟨defaultErrorMarker, defaultDecimalPlaces⟩

def roundingExponent (e : Evaluator) : Int := e.decimalPlaces.toInt32.toInt

def valueOf (e : Evaluator) (input : Text) : Except ExpressionError Binary64 :=
  let text := Expression.normalize input
  match Expression.firstForeign? text with
  | some c => .error (.foreignChar c)
  | none => do
    let v ← Expression.value Binary64.arithmetic text
    if v.isFinite then .ok (v.roundDecimals e.roundingExponent) else .error .notFinite

def outcome (e : Evaluator) (input : Text) : Outcome :=
  match e.valueOf input with
  | .ok v => .success input v
  | .error _ => .failure input e.errorMarker

end Evaluator

end DeskCalculator
