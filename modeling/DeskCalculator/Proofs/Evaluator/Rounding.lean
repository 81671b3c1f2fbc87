import DeskCalculator.Proofs.Decimal.Rounding
import DeskCalculator.Proofs.Evaluator.Display
import DeskCalculator.Proofs.Evaluator.Value
/-!
Which literals rounding leaves alone. A literal with no more places than are kept evaluates to what
it reads as while it is below two times 10^15 in the last place that is kept. With no place or one
that is every literal of fifteen digits; with more places a large number comes back changed.
-/
namespace DeskCalculator

open Expression
open scoped Binary64

structure Decimal.IsShort (places : Nat) (t : Text) (d : Decimal) : Prop where
  numeral : IsNumeral t
  digits : t.countP Char.isDigit ≤ 15
  read : ofText? t = some d
  places_le : d.places ≤ places

namespace Evaluator

variable {e : Evaluator} {t : Text} {d : Decimal}

theorem valueOf_numeral (numeral : IsNumeral t) (read : Decimal.ofText? t = some d)
    (finite : d.toBinary64.isFinite = true) :
    e.valueOf t = .ok (d.toBinary64.roundDecimals e.roundingExponent) := by
  have derives : Derives .sum t (.number t) := .product (.operand (.primary (.number numeral)))
  have written : ∀ c ∈ t, isWritten c = true := by
    intro c member
    rw [isWritten_eq, ((isNumeral_iff t).1 numeral).1.numeric c member, Bool.true_or]
  have evaluated : value Binary64.arithmetic (normalize t) = .ok d.toBinary64 := by
    rw [value_normalize_of_isSentence Binary64.hasSignLaws written ⟨_, derives⟩,
      value_eq_of_derives _ derives (Nat.zero_le _), Tree.value, literalValue, read,
      Binary64.arithmetic]
  rw [valueOf_eq_ok_iff]
  exact ⟨firstForeign?_of_isWritten written, _, evaluated, finite, rfl⟩

theorem isFinite_toBinary64 (small : d.mantissa < 2 * 10 ^ (15 : Nat)) :
    d.toBinary64.isFinite = true := by
  have short : d.mantissa < 2 ^ (51 : Nat) := by omega
  rw [Decimal.toBinary64_eq rfl (Decimal.storable_units short (by decide))]
  rfl

/-! ## Literals that change -/

theorem isShort_toText {n : Nat} (small : n < 10 ^ (15 : Nat)) (places : Nat) :
    Decimal.IsShort places (Decimal.toText ⟨n, 0⟩) ⟨n, 0⟩ where
  numeral := (Decimal.isPositional_toText _).isNumeral
  digits := by
    have length : (Nat.toDigits 10 n).length ≤ 15 :=
      (Nat.length_toDigits_le_iff (by decide) (by decide)).2 small
    exact Nat.le_trans List.countP_le_length length
  read := Decimal.ofText?_toText _
  places_le := Nat.zero_le places

/-- A number of fifteen digits that does not survive the rounding to these places. -/
def lossy (places : Nat) : Nat := if places = 3 then 80000000000001 else 991449190526238

theorem roundDecimals_lossy {places : Nat} (more : 1 < places) (few : places ≤ 15) :
    (Decimal.toBinary64 ⟨lossy places, 0⟩).roundDecimals places ≠
      Decimal.toBinary64 ⟨lossy places, 0⟩ := by
  have table : ∀ p : Fin 16, 1 < p.val →
      (Decimal.toBinary64 ⟨lossy p.val, 0⟩).roundDecimals p.val ≠
        Decimal.toBinary64 ⟨lossy p.val, 0⟩ := by
    decide +kernel
  exact table ⟨places, by omega⟩ more

/-! ## Literals that stay -/

/-- Let a literal have no more places than are kept, and be below two times 10^15 when it is counted
in the last of these. Then it evaluates to what it reads as. That this holds of every literal with
at most fifteen digits is so with no place or one, and with no other number of places. -/
theorem valueOf_numeral_iff (few : e.decimalPlaces.toNat ≤ 15) :
    (∀ t d, IsNumeral t → Decimal.ofText? t = some d → d.places ≤ e.decimalPlaces.toNat →
        d.mantissa * 10 ^ (e.decimalPlaces.toNat - d.places) < 2 * 10 ^ (15 : Nat) →
          e.valueOf t = .ok d.toBinary64) ∧
      ((∀ t d, Decimal.IsShort e.decimalPlaces.toNat t d → e.valueOf t = .ok d.toBinary64) ↔
        e.decimalPlaces.toNat ≤ 1) := by
  have exponent := roundingExponent_eq few
  generalize e.decimalPlaces.toNat = places at *
  have stays : ∀ t d, IsNumeral t → Decimal.ofText? t = some d → d.places ≤ places →
      d.mantissa * 10 ^ (places - d.places) < 2 * 10 ^ (15 : Nat) →
        e.valueOf t = .ok d.toBinary64 := by
    intro t d numeral read more small
    have mantissa :=
      Nat.le_mul_of_pos_right d.mantissa (Binary64.powerOfTen_pos (places - d.places))
    rw [valueOf_numeral numeral read (isFinite_toBinary64 (by omega)), exponent,
      Decimal.roundDecimals_toBinary64 few more small]
  refine ⟨stays, ?_, ?_⟩
  · intro all
    by_contra more
    have small : lossy places < 10 ^ (15 : Nat) := by
      unfold lossy
      split <;> decide
    have short := isShort_toText small places
    have finite : (Decimal.toBinary64 ⟨lossy places, 0⟩).isFinite = true :=
      isFinite_toBinary64 (Nat.lt_of_lt_of_le small (by decide))
    have kept := all _ _ short
    rw [valueOf_numeral short.numeral short.read finite, exponent] at kept
    exact roundDecimals_lossy (by omega) few (Except.ok.inj kept)
  · intro one t d short
    have small : d.mantissa < 10 ^ (15 : Nat) :=
      Nat.lt_of_lt_of_le (Decimal.mantissa_lt short.numeral short.read)
        (Nat.pow_le_pow_right (by decide) short.digits)
    by_cases same : d.places = places
    · apply stays t d short.numeral short.read short.places_le
      rw [same, Nat.sub_self, Nat.pow_zero, Nat.mul_one]
      omega
    · obtain ⟨n, k⟩ := d
      have less := short.places_le
      obtain rfl : k = 0 := by dsimp only at same less; omega
      obtain rfl : places = 1 := by dsimp only at same less; omega
      rw [valueOf_numeral short.numeral short.read (isFinite_toBinary64 (by omega)), exponent,
        Decimal.roundDecimals_whole small]

theorem valueOf_numeral_iff_default :
    let t := "99999.9999999999".toList
    let d : Decimal := ⟨999999999999999, 10⟩
    default.decimalPlaces.toNat ≤ 15 ∧ Decimal.IsShort default.decimalPlaces.toNat t d ∧
      d.mantissa * 10 ^ (default.decimalPlaces.toNat - d.places) < 2 * 10 ^ (15 : Nat) ∧
      default.valueOf t = .ok d.toBinary64 := by
  intro t d
  have few : default.decimalPlaces.toNat ≤ 15 := by decide
  have literal : IsLiteral t := ⟨List.all_eq_true.1 (by decide), by decide⟩
  have numeral : IsNumeral t := (isNumeral_iff t).2 ⟨literal, by decide⟩
  have short : Decimal.IsShort default.decimalPlaces.toNat t d :=
    ⟨numeral, by decide, by decide, by decide⟩
  have small :
      d.mantissa * 10 ^ (default.decimalPlaces.toNat - d.places) < 2 * 10 ^ (15 : Nat) := by decide
  obtain ⟨stays, _⟩ := valueOf_numeral_iff few
  exact ⟨few, short, small, stays t d numeral short.read short.places_le small⟩

theorem exists_valueOf_numeral_ne :
    let t := "1000000001".toList
    let d : Decimal := ⟨1000000001, 0⟩
    Decimal.IsShort default.decimalPlaces.toNat t d ∧ default.valueOf t ≠ .ok d.toBinary64 ∧
      (default.valueOf t).toOption.map Binary64.display = some "1000000000.9999999".toList := by
  intro t d
  have literal : IsLiteral t := ⟨List.all_eq_true.1 (by decide), by decide⟩
  have numeral : IsNumeral t := (isNumeral_iff t).2 ⟨literal, by decide⟩
  exact ⟨⟨numeral, by decide, by decide, by decide⟩, by decide +kernel, by decide +kernel⟩

end Evaluator

end DeskCalculator
