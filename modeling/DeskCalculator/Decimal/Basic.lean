import DeskCalculator.Text.Basic
import DeskCalculator.Binary64.Operations
/-!
Unsigned decimal numbers, mantissa and places, with the text they are read from and written as and
the double they round to.
-/
namespace DeskCalculator

/-- The number `mantissa / 10 ^ places`. -/
structure Decimal where
  mantissa : Nat
  places : Nat
  deriving DecidableEq, Repr

namespace Decimal

open scoped Binary64

def ofText? (t : Text) : Option Decimal :=
  if t.any Char.isDigit then
    let whole := t.takeWhile (· != '.')
    let fraction := (t.dropWhile (· != '.')).drop 1
    some ⟨Nat.ofDigitChars 10 (whole ++ fraction) 0, fraction.length⟩
  else none

def paddedDigits (width n : Nat) : Text :=
  let digits := Nat.toDigits 10 n
  List.replicate (width - digits.length) '0' ++ digits

def toText (d : Decimal) : Text :=
  if d.places = 0 then Nat.toDigits 10 d.mantissa
  else
    Nat.toDigits 10 (d.mantissa / 10 ^ d.places) ++
      '.' :: paddedDigits d.places (d.mantissa % 10 ^ d.places)

def reduce (mantissa : Nat) : Nat → Decimal
  | 0 => ⟨mantissa, 0⟩
  | places + 1 =>
    if mantissa % 10 = 0 then reduce (mantissa / 10) places else ⟨mantissa, places + 1⟩

def units (d : Decimal) : Nat :=
  Binary64.roundQuotient (d.mantissa * Binary64.unitsPerOne) (10 ^ d.places)

def toBinary64 (d : Decimal) : Binary64 :=
  Binary64.ofQuotient false (d.mantissa * Binary64.unitsPerOne) (10 ^ d.places)

theorem reduce_value (mantissa places : Nat) :
    (reduce mantissa places).mantissa * 10 ^ places =
      mantissa * 10 ^ (reduce mantissa places).places := by
  induction places generalizing mantissa with
  | zero => rfl
  | succ places ih =>
    rw [reduce]
    split
    next whole =>
      have restored : mantissa = mantissa / 10 * 10 := by omega
      rw [Nat.pow_succ, ← Nat.mul_assoc, ih, Nat.mul_right_comm, ← restored]
    next => rfl

end Decimal

end DeskCalculator
