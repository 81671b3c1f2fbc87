import DeskCalculator.Binary64.Basic
/-!
The arithmetic of doubles: each operation on finite numbers is one exact rational result, rounded
once. Infinities and the signs of zeros follow the standard for floating-point arithmetic.
-/
namespace DeskCalculator.Binary64

def unitBits : Nat := 1074

def unitsPerOne : Nat := 2 ^ unitBits

def ofNat (n : Nat) : Binary64 := ofQuotient false (n * unitsPerOne) 1

def epsilon : Binary64 := ofQuotient false unitsPerOne (2 ^ (52 : Nat))

def signedUnits (negative : Bool) (units : Nat) : Int := if negative then -units else units

def ofSignedUnits (units : Int) : Binary64 := ofQuotient (units < 0) units.natAbs 1

def neg : Binary64 → Binary64
  | .notANumber => .notANumber
  | .infinite s => .infinite !s
  | .finite s m h => .finite (!s) m h

def add : Binary64 → Binary64 → Binary64
  | .notANumber, _ => .notANumber
  | _, .notANumber => .notANumber
  | .infinite s, .infinite t => if s = t then .infinite s else .notANumber
  | .infinite s, .finite .. => .infinite s
  | .finite .., .infinite t => .infinite t
  | .finite s m _, .finite t n _ =>
    if m = 0 ∧ n = 0 then zero (s && t) else ofSignedUnits (signedUnits s m + signedUnits t n)

def sub (x y : Binary64) : Binary64 := add x (neg y)

def mul : Binary64 → Binary64 → Binary64
  | .notANumber, _ => .notANumber
  | _, .notANumber => .notANumber
  | .infinite s, .infinite t => .infinite (s != t)
  | .infinite s, .finite t n _ => if n = 0 then .notANumber else .infinite (s != t)
  | .finite s m _, .infinite t => if m = 0 then .notANumber else .infinite (s != t)
  | .finite s m _, .finite t n _ => ofQuotient (s != t) (m * n) unitsPerOne

def div : Binary64 → Binary64 → Binary64
  | .notANumber, _ => .notANumber
  | _, .notANumber => .notANumber
  | .infinite _, .infinite _ => .notANumber
  | .infinite s, .finite t _ _ => .infinite (s != t)
  | .finite s _ _, .infinite t => zero (s != t)
  | .finite s m _, .finite t n _ =>
    if n = 0 then if m = 0 then .notANumber else .infinite (s != t)
    else ofQuotient (s != t) (m * unitsPerOne) n

def sqrt : Binary64 → Binary64
  | .notANumber => .notANumber
  | .infinite s => if s then .notANumber else .infinite false
  | .finite s m h =>
    if m = 0 then .finite s m h
    else if s then .notANumber
    else
      -- The root of `m` units is that of `m` times 2^1074, whose whole part has far more than 54
      -- bits: any number between it and the next one rounds as the root does.
      let whole := Nat.sqrt (m * unitsPerOne)
      if whole * whole = m * unitsPerOne then ofQuotient false whole 1
      else ofQuotient false (2 * whole + 1) 2

def round : Binary64 → Binary64
  | .notANumber => .notANumber
  | .infinite s => .infinite s
  | .finite s m _ =>
    ofQuotient s ((2 * m + unitsPerOne) / (2 * unitsPerOne) * unitsPerOne) 1

def powerStep (exponent : Nat) (acc : Binary64 × Binary64) (bit : Nat) : Binary64 × Binary64 :=
  (if exponent.testBit bit then mul acc.1 acc.2 else acc.1, mul acc.2 acc.2)

def power (base : Binary64) (exponent : Nat) : Binary64 :=
  ((List.range 32).foldl (powerStep exponent) (ofNat 1, base)).1

def tenTo (exponent : Int) : Binary64 :=
  if exponent < 0 then div (ofNat 1) (power (ofNat 10) exponent.natAbs)
  else power (ofNat 10) exponent.natAbs

theorem neg_neg (x : Binary64) : neg (neg x) = x := by
  cases x <;> simp [neg]

theorem isFinite_neg (x : Binary64) : (neg x).isFinite = x.isFinite := by
  cases x <;> rfl

theorem isZero_neg (x : Binary64) : (neg x).isZero = x.isZero := by
  cases x <;> rfl

end DeskCalculator.Binary64
