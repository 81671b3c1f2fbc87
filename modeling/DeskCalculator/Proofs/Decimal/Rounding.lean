import DeskCalculator.Proofs.Binary64.Decimals
import DeskCalculator.Proofs.Decimal.ReadBack
/-!
Decimals that are rounded to their own places. Reading the decimal, adding the nudge and scaling
each round once. As long as the mantissa is small the errors stay below a half together, the nearest
whole number is the mantissa, and scaling it back gives what the decimal reads as.
-/
namespace DeskCalculator.Decimal

open Binary64

def withPlaces (d : Decimal) (places : Nat) : Decimal :=
  ⟨d.mantissa * 10 ^ (places - d.places), places⟩

theorem toBinary64_withPlaces {d : Decimal} {places : Nat} (more : d.places ≤ places) :
    (d.withPlaces places).toBinary64 = d.toBinary64 := by
  have power : 10 ^ d.places * 10 ^ (places - d.places) = 10 ^ places := by
    rw [← Nat.pow_add, Nat.add_sub_cancel' more]
  apply ofQuotient_congr
  rw [withPlaces, ← power, Nat.mul_right_comm, roundQuotient_mul_right (powerOfTen_pos _)]

def value (d : Decimal) : Rat := d.mantissa / 10 ^ d.places

theorem ones_units (d : Decimal) :
    ones (d.mantissa * unitsPerOne) / (10 ^ d.places : Nat) = d.value := by
  rw [ones_mul, ones_unitsPerOne, mul_one, value, Nat.cast_pow, Nat.cast_ofNat]

/-! ## The range -/

section Range

variable {d : Decimal} {k : Nat} (small : d.mantissa < 2 ^ k)
  (inRange : k + unitBits + 1 < rangeBits)

include small

theorem mantissa_mul_le : d.mantissa * unitsPerOne ≤ 10 ^ d.places * 2 ^ (k + unitBits) := by
  calc
    d.mantissa * unitsPerOne ≤ 2 ^ k * unitsPerOne := Nat.mul_le_mul_right _ (Nat.le_of_lt small)
    _ = 2 ^ (k + unitBits) := (Nat.pow_add 2 k unitBits).symm
    _ ≤ 10 ^ d.places * 2 ^ (k + unitBits) := Nat.le_mul_of_pos_left _ (powerOfTen_pos _)

include inRange

theorem storable_units : Storable d.units :=
  storable_roundQuotient (storable_two_pow (by omega)) (mantissa_mul_le small)

theorem storable_nudged : Storable (nudged d.units) := by
  apply storable_roundQuotient (storable_two_pow inRange)
  have read : d.units ≤ 2 ^ (k + unitBits) :=
    roundQuotient_le (storable_two_pow (by omega)) (mantissa_mul_le small)
  have nudge : nudgeUnits ≤ 2 ^ (k + unitBits) :=
    Nat.pow_le_pow_right (by decide) (by unfold nudgeBits unitBits; omega)
  rw [Nat.one_mul, Nat.pow_succ, Nat.mul_two]
  exact Nat.add_le_add read nudge

end Range

/-! ## The number that is scaled -/

theorem abs_ones_units_sub_le {d : Decimal} {j : Nat} (small : d.value < 2 ^ j) :
    |ones d.units - d.value| ≤ 2 ^ j / 2 ^ 54 := by
  rw [← ones_units] at small ⊢
  exact abs_ones_sub_le (powerOfTen_pos _) small

theorem abs_ones_units_sub_le_mul {d : Decimal} (large : 1 ≤ d.value) :
    |ones d.units - d.value| ≤ d.value / 2 ^ 53 := by
  rw [← ones_units] at large ⊢
  exact abs_ones_sub_le_mul (powerOfTen_pos _) large

theorem mul_unitsPerOne_le_units {d : Decimal} {n : Nat} (large : n ≤ d.value)
    (storable : Storable (n * unitsPerOne)) : n * unitsPerOne ≤ d.units := by
  apply le_roundQuotient storable (powerOfTen_pos _)
  rw [← ones_le_ones, ones_mul, ones_mul, ones_mul, ones_unitsPerOne, mul_one, mul_one]
  rw [value, le_div_iff₀ (by positivity)] at large
  rw [Nat.cast_pow, Nat.cast_ofNat, mul_comm]
  exact large

theorem abs_nudged_sub_le {d : Decimal} {j : Nat} (small : d.value < 2 ^ j) :
    |ones (nudged d.units) - d.value| ≤ (3 * 2 ^ j + 4) / 2 ^ 54 := by
  have read := abs_ones_units_sub_le small
  have one : (1 : Rat) ≤ 2 ^ j := one_le_pow₀ (by norm_num)
  have sum : ones (d.units + nudgeUnits) / (1 : Nat) = ones d.units + 1 / 2 ^ 52 := by
    rw [ones_add, ones_nudgeUnits, Nat.cast_one, div_one]
  have below : ones (d.units + nudgeUnits) / (1 : Nat) < 2 ^ (j + 1) := by
    rw [sum, pow_succ 2 j]
    have := (abs_le.1 read).2
    linarith
  have added := abs_ones_sub_le Nat.one_pos below
  rw [sum, pow_succ 2 j] at added
  rw [abs_le] at read added ⊢
  constructor
  · change _ ≤ ones (roundQuotient (d.units + nudgeUnits) 1) - _
    linarith
  · change ones (roundQuotient (d.units + nudgeUnits) 1) - _ ≤ _
    linarith

theorem abs_nudged_sub_le_of_le {d : Decimal} (storable : Storable d.units) (large : 1 ≤ d.value)
    (small : d.value + 1 / 2 ^ 53 < 2) :
    |ones (nudged d.units) - d.value| ≤ 6 / 2 ^ 54 := by
  have read := abs_ones_units_sub_le (j := 1) (by linarith)
  have one : unitsPerOne ≤ d.units := by
    have storableOne : Storable (1 * unitsPerOne) := by
      rw [Nat.one_mul]
      exact storable_unitsPerOne
    have whole := mul_unitsPerOne_le_units (Nat.cast_one.trans_le large) storableOne
    rw [Nat.one_mul] at whole
    exact whole
  have two : d.units < 2 * unitsPerOne := by
    rw [← ones_lt_ones, ones_mul, ones_unitsPerOne]
    push_cast
    have := (abs_le.1 read).2
    linarith
  rw [nudged_eq_add storable one two, ones_add, ones_nudgeUnits, abs_le]
  rw [abs_le] at read
  constructor <;> linarith

theorem nudged_units {d : Decimal} (storable : Storable d.units) (large : 4 ≤ d.value) :
    nudged d.units = d.units := by
  have four : Storable (4 * unitsPerOne) := storable_mul_unitsPerOne (by decide)
  exact nudged_eq_self storable (mul_unitsPerOne_le_units (n := 4) large four)

/-! ## The nearest whole number -/

theorem nearestWhole_scaledUnits {d : Decimal} {a j : Nat} {error : Rat}
    (off : |ones a - d.value| ≤ error) (fits : d.mantissa + 1 ≤ 2 ^ j)
    (near : error * 10 ^ d.places + 2 ^ j / 2 ^ 54 < 1 / 2) :
    nearestWhole (scaledUnits d.places a) = d.mantissa := by
  have power : (0 : Rat) < 10 ^ d.places := by positivity
  have whole : d.value * 10 ^ d.places = d.mantissa := div_mul_cancel₀ _ power.ne'
  have grain : (0 : Rat) < 2 ^ j / 2 ^ 54 := by positivity
  have scaled : ones (a * 10 ^ d.places) / (1 : Nat) = ones a * 10 ^ d.places := by
    rw [mul_comm a, ones_mul, Nat.cast_one, div_one, Nat.cast_pow, Nat.cast_ofNat, mul_comm]
  have exact_off : |ones a * 10 ^ d.places - d.mantissa| ≤ error * 10 ^ d.places := by
    rw [← whole, ← sub_mul, abs_mul, abs_of_pos power]
    exact mul_le_mul_of_nonneg_right off power.le
  have inRange : ones (a * 10 ^ d.places) / (1 : Nat) < 2 ^ j := by
    have bound : (d.mantissa : Rat) + 1 ≤ 2 ^ j := by exact_mod_cast fits
    have := (abs_le.1 exact_off).2
    rw [scaled]
    linarith
  have rounded := abs_ones_sub_le Nat.one_pos inRange
  apply nearestWhole_of_abs
  rw [scaled] at rounded
  rw [abs_lt]
  rw [abs_le] at exact_off rounded
  constructor
  · change _ < ones (roundQuotient (a * 10 ^ d.places) 1) - _
    linarith
  · change ones (roundQuotient (a * 10 ^ d.places) 1) - _ < _
    linarith

section Errors

variable {d : Decimal} (small : d.mantissa < 2 * 10 ^ (15 : Nat))

include small

theorem storable_units_of_lt : Storable d.units := by
  have fits : d.mantissa < 2 ^ (51 : Nat) := by omega
  exact storable_units fits (by decide)

theorem nearestWhole_below_one (most : d.places = 15) (below : d.mantissa < 10 ^ (15 : Nat)) :
    nearestWhole (scaledUnits d.places (nudged d.units)) = d.mantissa := by
  -- Below one the nudge is rounded too, so that all three errors count.
  have less : d.value < 2 ^ 0 := by
    rw [value, most, div_lt_iff₀ (by norm_num)]
    exact_mod_cast below
  apply nearestWhole_scaledUnits (abs_nudged_sub_le less) (j := 50) (by omega)
  rw [most]
  norm_num

theorem nearestWhole_below_two (most : d.places = 15) (above : 10 ^ (15 : Nat) ≤ d.mantissa) :
    nearestWhole (scaledUnits d.places (nudged d.units)) = d.mantissa := by
  -- From one on the nudge is added exactly.
  have value : d.value = d.mantissa / 10 ^ 15 := by rw [Decimal.value, most]
  have large : 1 ≤ d.value := by
    rw [value, le_div_iff₀ (by norm_num)]
    exact_mod_cast above
  have room : d.value + 1 / 2 ^ 53 < 2 := by
    have next : (d.mantissa : Rat) + 1 ≤ 2 * 10 ^ 15 := by exact_mod_cast small
    rw [value, ← lt_sub_iff_add_lt, div_lt_iff₀ (by norm_num)]
    linarith
  have off := abs_nudged_sub_le_of_le (storable_units_of_lt small) large room
  apply nearestWhole_scaledUnits off (j := 51) (by omega)
  rw [most]
  norm_num

theorem nearestWhole_below_four (few : d.places ≤ 14) (below : d.value < 2 ^ 2) :
    nearestWhole (scaledUnits d.places (nudged d.units)) = d.mantissa := by
  -- With fewer places the errors are scaled less.
  have factor : (10 : Rat) ^ d.places ≤ 10 ^ 14 := pow_le_pow_right₀ (by norm_num) few
  apply nearestWhole_scaledUnits (abs_nudged_sub_le below) (j := 51) (by omega)
  linarith

theorem nearestWhole_from_four (large : 4 ≤ d.value) :
    nearestWhole (scaledUnits d.places (nudged d.units)) = d.mantissa := by
  -- From four on the nudge is lost, and what reading adds is a part of the mantissa.
  have power : (0 : Rat) < 10 ^ d.places := by positivity
  have whole : d.value * 10 ^ d.places = d.mantissa := div_mul_cancel₀ _ power.ne'
  have mantissa : (d.mantissa : Rat) < 2 * 10 ^ 15 := by exact_mod_cast small
  have off := abs_ones_units_sub_le_mul (show 1 ≤ d.value by linarith)
  rw [nudged_units (storable_units_of_lt small) large]
  apply nearestWhole_scaledUnits off (j := 51) (by omega)
  rw [div_mul_eq_mul_div, whole]
  linarith

theorem nearestWhole_mantissa (few : d.places ≤ 15) :
    nearestWhole (scaledUnits d.places (nudged d.units)) = d.mantissa := by
  by_cases most : d.places = 15
  · by_cases below : d.mantissa < 10 ^ (15 : Nat)
    · exact nearestWhole_below_one small most below
    · exact nearestWhole_below_two small most (Nat.le_of_not_lt below)
  · by_cases below : d.value < 2 ^ 2
    · exact nearestWhole_below_four small (by omega) below
    · exact nearestWhole_from_four small (by linarith)

end Errors

/-! ## Scaling back -/

theorem roundDecimals_of_nearestWhole {d : Decimal} {k : Nat}
    (small : d.mantissa < 2 ^ k) (inRange : k + unitBits + 1 < rangeBits) (few : d.places ≤ 15)
    (whole : nearestWhole (scaledUnits d.places (nudged d.units)) = d.mantissa) :
    d.toBinary64.roundDecimals d.places = d.toBinary64 := by
  have read := toBinary64_eq rfl (storable_units small inRange)
  have nudged_storable := storable_nudged small inRange
  have added : add d.toBinary64 epsilon = .finite false (nudged d.units) nudged_storable := by
    rw [read, add_epsilon]
    exact ofQuotient_eq false rfl nudged_storable
  have scaled : scaledUnits d.places (nudged d.units) < 2 ^ rangeBits := by
    have below : nearestWhole (scaledUnits d.places (nudged d.units)) < 2 ^ k := by
      rw [whole]
      exact small
    have size : 2 ^ k * unitsPerOne = 2 ^ (k + unitBits) := (Nat.pow_add 2 k unitBits).symm
    rw [nearestWhole_lt_iff, Nat.mul_assoc] at below
    have bound := Nat.pow_lt_pow_right (a := 2) (by decide) (show k + unitBits < rangeBits by omega)
    omega
  rw [roundDecimals_of_add few added, if_pos scaled, whole]
  rfl

/-- A decimal is rounded to places of its own or more without any change, if its mantissa at these
places is below two times 10^15. -/
theorem roundDecimals_toBinary64 {d : Decimal} {places : Nat} (few : places ≤ 15)
    (more : d.places ≤ places)
    (small : d.mantissa * 10 ^ (places - d.places) < 2 * 10 ^ (15 : Nat)) :
    d.toBinary64.roundDecimals places = d.toBinary64 := by
  rw [← toBinary64_withPlaces more]
  have short : (d.withPlaces places).mantissa < 2 ^ (51 : Nat) := by
    change d.mantissa * 10 ^ (places - d.places) < _
    omega
  exact roundDecimals_of_nearestWhole (k := 51) short (by decide) few
    (nearestWhole_mantissa small few)

theorem roundDecimals_whole {n : Nat} (small : n < 10 ^ (15 : Nat)) :
    (toBinary64 ⟨n, 0⟩).roundDecimals (1 : Nat) = toBinary64 ⟨n, 0⟩ := by
  by_cases short : n * 10 < 2 * 10 ^ (15 : Nat)
  · exact roundDecimals_toBinary64 (by decide) (Nat.zero_le 1) short
  · have storable : Storable (n * unitsPerOne) := storable_mul_unitsPerOne (by omega)
    have read : units ⟨n * 10, 1⟩ = n * unitsPerOne := by
      rw [units, Nat.mul_comm n, Nat.mul_assoc]
      exact roundQuotient_of_storable (powerOfTen_pos 1) storable
    have large : 4 * unitsPerOne ≤ n * unitsPerOne := Nat.mul_le_mul_right _ (by omega)
    have scaled : scaledUnits 1 (n * unitsPerOne) = n * 10 * unitsPerOne := by
      have split : n * unitsPerOne * 10 ^ (1 : Nat) = 5 * n * 2 ^ (1 + unitBits) := by
        rw [Nat.pow_add, unitsPerOne]
        generalize 2 ^ unitBits = one
        ring
      have room : Storable (5 * n * 2 ^ (1 + unitBits)) :=
        storable_mul_two_pow (by omega) (by decide)
      rw [scaledUnits, split, roundQuotient_one room, ← split, Nat.pow_one, Nat.mul_right_comm]
    have sameNumber : withPlaces ⟨n, 0⟩ 1 = ⟨n * 10, 1⟩ := rfl
    rw [← toBinary64_withPlaces (Nat.zero_le 1), sameNumber]
    have tenfold : n * 10 < 2 ^ (60 : Nat) := by omega
    have one : 1 ≤ 15 := by decide
    apply roundDecimals_of_nearestWhole (d := ⟨n * 10, 1⟩) tenfold (by decide) one
    rw [read, nudged_eq_self storable large, scaled, nearestWhole_mul]

end DeskCalculator.Decimal
