import DeskCalculator.Evaluator.Basic
/-!
An outcome as a JSON object over several lines, with its fields in a fixed order.
-/
namespace DeskCalculator

namespace Json

def stringChar (c : Char) : Text :=
  if c = '"' then ['\\', '"']
  else if c = '\\' then ['\\', '\\']
  else if c = '\x08' then ['\\', 'b']
  else if c = '\x0c' then ['\\', 'f']
  else if c = '\n' then ['\\', 'n']
  else if c = '\r' then ['\\', 'r']
  else if c = '\t' then ['\\', 't']
  else if c.toNat < 0x20 then
    ['\\', 'u', '0', '0', (c.toNat / 16).digitChar, (c.toNat % 16).digitChar]
  else [c]

def string (t : Text) : Text := '"' :: t.flatMap stringChar ++ ['"']

def isPositional (exponent : Int) : Bool := -5 ≤ exponent && exponent < 16

def scientific (digits : Text) (exponent : Int) : Text :=
  let significant := (digits.reverse.dropWhile (· == '0')).reverse
  let fraction := if significant.length ≤ 1 then [] else '.' :: significant.drop 1
  significant.take 1 ++ fraction ++ 'e' :: (if exponent < 0 then '-' else '+') ::
    Nat.toDigits 10 exponent.natAbs

def decimal (d : Decimal) : Text :=
  let digits := Nat.toDigits 10 d.mantissa
  let exponent : Int := digits.length - 1 - d.places
  if isPositional exponent then d.toText ++ (if d.places = 0 then ['.', '0'] else [])
  else scientific digits exponent

/-- A number in its shortest form; of two equally near, the one with the even last digit. What is
not a finite number has no JSON form. -/
def number : Binary64 → Text
  | .finite s m _ =>
    (if s then ['-'] else []) ++
      if m = 0 then ['0', '.', '0'] else decimal (Decimal.shortest .toEven m)
  | _ => "null".toList

def object (fields : List (Text × Text)) : Text :=
  let lines := fields.map fun f => "\n  ".toList ++ string f.1 ++ ": ".toList ++ f.2
  '\x7b' :: List.intercalate [','] lines ++ ['\n', '\x7d']

end Json

namespace Outcome

def json : Outcome → Text
  | success e v => Json.object [
      ("status".toList, Json.string "success".toList),
      ("expression".toList, Json.string e),
      ("value".toList, Json.number v),
      ("display_result".toList, Json.string v.display)]
  | failure e m => Json.object [
      ("status".toList, Json.string "error".toList),
      ("expression".toList, Json.string e),
      ("message".toList, Json.string m)]

end Outcome

end DeskCalculator
