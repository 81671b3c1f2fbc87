import DeskCalculator.Decimal.Basic
/-!
The shortest decimal that reads back as a given double. On the grids of 1, 2, … 17 digits the two
neighbours of the exact value are tried; the first grid with a neighbour that reads back gives the
answer, and of two such neighbours the nearer one. Written out in full it is the display form of the
double.
-/
namespace DeskCalculator.Decimal

open scoped Binary64

inductive Tie where
  | up
  | toEven

def exactPlaces : Nat := 1074

def exactMantissa (units : Nat) : Nat := units * 5 ^ exactPlaces

def ReadsBack (units mantissa : Nat) : Prop :=
  Decimal.units ⟨mantissa, exactPlaces⟩ = units

instance (units mantissa : Nat) : Decidable (ReadsBack units mantissa) :=
  inferInstanceAs (Decidable (_ = _))

/-- Of the two multiples of `grain` around the exact value, the nearer one that reads back. -/
def neighbour? (tie : Tie) (units grain : Nat) : Option Nat :=
  let exact := exactMantissa units
  let low := exact / grain * grain
  let high := low + grain
  if ReadsBack units low then
    if ReadsBack units high then
      if 2 * (exact - low) < grain then some low
      else if grain < 2 * (exact - low) then some high
      else match tie with
        | .up => some high
        | .toEven => if exact / grain % 2 = 0 then some low else some high
    else some low
  else if ReadsBack units high then some high else none

/-- The shortest mantissa at 1074 places that reads back. Seventeen digits always suffice; the exact
value stands behind them. -/
def shortestMantissa (tie : Tie) (units : Nat) : Nat :=
  let length := (Nat.toDigits 10 (exactMantissa units)).length
  ((List.range 17).findSome? fun i => neighbour? tie units (10 ^ (length - (i + 1)))).getD
    (exactMantissa units)

def shortest (tie : Tie) (units : Nat) : Decimal :=
  reduce (shortestMantissa tie units) exactPlaces

theorem readsBack_of_neighbour? {tie : Tie} {units grain m : Nat}
    (found : neighbour? tie units grain = some m) : ReadsBack units m := by
  simp only [neighbour?] at found
  generalize exactMantissa units / grain * grain = low at found
  by_cases lower : ReadsBack units low <;> by_cases upper : ReadsBack units (low + grain) <;>
    simp only [lower, upper, if_true, if_false] at found
  · split at found
    · exact Option.some.inj found ▸ lower
    · split at found
      · exact Option.some.inj found ▸ upper
      · cases tie
        · exact Option.some.inj found ▸ upper
        · dsimp only at found
          split at found
          · exact Option.some.inj found ▸ lower
          · exact Option.some.inj found ▸ upper
  · exact Option.some.inj found ▸ lower
  · exact Option.some.inj found ▸ upper
  · exact absurd found (by simp)

end DeskCalculator.Decimal

namespace DeskCalculator.Binary64

/-- A half between two shortest decimals goes up. An exponent is never written, and neither zero has
a sign. -/
def display : Binary64 → Text
  | .notANumber => ['N', 'a', 'N']
  | .infinite s => if s then ['-', 'i', 'n', 'f'] else ['i', 'n', 'f']
  | .finite s m _ =>
    if m = 0 then ['0']
    else
      let digits := (Decimal.shortest .up m).toText
      if s then '-' :: digits else digits

end DeskCalculator.Binary64
