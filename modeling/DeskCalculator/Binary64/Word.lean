import DeskCalculator.Binary64.Operations
/-!
The 64-bit word of a double: a sign bit, eleven bits of exponent and 52 bits of fraction, written
as sixteen hexadecimal digits.
-/
namespace DeskCalculator.Binary64

def fractionBits : Nat := 52

def exponentBits : Nat := 11

def signUnit : Nat := 2 ^ (fractionBits + exponentBits)

/-- The exponent and fraction bits of a finite magnitude, as one number. A subnormal magnitude is
its own fraction; a normal one drops its leading bit and counts how far it is shifted. -/
def magnitudeBits (units : Nat) : Nat :=
  if units < 2 ^ fractionBits then units
  else (spareBits units + 1) * 2 ^ fractionBits + (units / 2 ^ spareBits units - 2 ^ fractionBits)

def toWord : Binary64 → Nat
  | .notANumber => 0x7ff8000000000000
  | .infinite s => (if s then signUnit else 0) + 0x7ff0000000000000
  | .finite s m _ => (if s then signUnit else 0) + magnitudeBits m

def ofWord (word : Nat) : Binary64 :=
  let negative := word.testBit 63
  let exponent := word / 2 ^ fractionBits % 2 ^ exponentBits
  let fraction := word % 2 ^ fractionBits
  if exponent = 2047 then if fraction = 0 then .infinite negative else .notANumber
  else if exponent = 0 then ofQuotient negative fraction 1
  else ofQuotient negative ((2 ^ fractionBits + fraction) * 2 ^ (exponent - 1)) 1

def wordDigits (word : Nat) : List Char :=
  let digits := Nat.toDigits 16 word
  List.replicate (16 - digits.length) '0' ++ digits

end DeskCalculator.Binary64
