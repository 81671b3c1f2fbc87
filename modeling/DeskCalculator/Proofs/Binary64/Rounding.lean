import DeskCalculator.Proofs.Binary64.Range
import Mathlib.Algebra.Order.Field.Rat
import Mathlib.Data.Nat.Cast.Order.Field
import Mathlib.Tactic.FieldSimp
import Mathlib.Tactic.Linarith
import Mathlib.Tactic.NormNum
import Mathlib.Tactic.Ring
/-!
What a single rounding does. It depends on the quotient alone and not on the fraction that is taken
for it, it leaves what a double holds, it keeps the order, and it moves a number by half a grain at
most, where the grain is 2^-53 of the next power of two above the number.
-/
namespace DeskCalculator.Binary64

/-! ## The quotient alone -/

theorem nearestEven_mul_right {c : Nat} (positive : 0 < c) (n d : Nat) :
    nearestEven (n * c) (d * c) = nearestEven n d := by
  have scaled : 2 * (n * c % (d * c)) = 2 * (n % d) * c := by
    rw [Nat.mul_mod_mul_right, Nat.mul_assoc]
  unfold nearestEven
  rw [Nat.mul_div_mul_right n d positive, scaled]
  simp only [Nat.mul_lt_mul_right positive]

theorem roundQuotient_mul_right {c : Nat} (positive : 0 < c) (n d : Nat) :
    roundQuotient (n * c) (d * c) = roundQuotient n d := by
  unfold roundQuotient
  rw [Nat.mul_div_mul_right n d positive, Nat.mul_right_comm, nearestEven_mul_right positive]

theorem roundQuotient_congr {n d n' d' : Nat} (positive : 0 < d) (positive' : 0 < d')
    (same : n * d' = n' * d) : roundQuotient n d = roundQuotient n' d' := by
  rw [← roundQuotient_mul_right positive' n d, same, Nat.mul_comm d d',
    roundQuotient_mul_right positive]

theorem roundQuotient_of_storable {d m : Nat} (positive : 0 < d) (storable : Storable m) :
    roundQuotient (d * m) d = m :=
  Nat.le_antisymm (roundQuotient_le storable (Nat.le_refl _))
    (le_roundQuotient storable positive (Nat.le_refl _))

theorem roundQuotient_one {m : Nat} (storable : Storable m) : roundQuotient m 1 = m := by
  have whole := roundQuotient_of_storable Nat.one_pos storable
  rwa [Nat.one_mul] at whole

theorem ofQuotient_congr {n d n' d' : Nat} (negative : Bool)
    (same : roundQuotient n d = roundQuotient n' d') :
    ofQuotient negative n d = ofQuotient negative n' d' := by
  simp only [ofQuotient, same]

theorem ofQuotient_eq {n d m : Nat} (negative : Bool) (rounded : roundQuotient n d = m)
    (storable : Storable m) : ofQuotient negative n d = .finite negative m storable := by
  subst rounded
  exact dif_pos storable.1

theorem ofQuotient_zero (negative : Bool) (d : Nat) : ofQuotient negative 0 d = zero negative := by
  have nothing : Storable 0 := ⟨Nat.two_pow_pos _, Nat.dvd_zero _⟩
  have rounded : roundQuotient 0 d ≤ 0 := roundQuotient_le nothing (Nat.zero_le _)
  exact ofQuotient_eq negative (Nat.le_zero.1 rounded) nothing

/-! ## The order -/

theorem nearestEven_spec {d : Nat} (positive : 0 < d) (n : Nat) :
    (2 * n < d * (2 * nearestEven n d + 1) ∨
        2 * n = d * (2 * nearestEven n d + 1) ∧ nearestEven n d % 2 = 0) ∧
      (d * (2 * nearestEven n d) < 2 * n + d ∨
        d * (2 * nearestEven n d) = 2 * n + d ∧ nearestEven n d % 2 = 0) := by
  have whole := Nat.div_add_mod n d
  have rest := Nat.mod_lt n positive
  have twice (k : Nat) : d * (2 * k + 1) = 2 * (d * k) + d := by ring
  have twice' (k : Nat) : d * (2 * k) = 2 * (d * k) := by ring
  have next : d * (n / d + 1) = d * (n / d) + d := Nat.mul_succ _ _
  rw [twice, twice']
  unfold nearestEven
  split
  next below => omega
  next => split
          next above => rw [next]; omega
          next =>
            split
            next even => omega
            next odd => rw [next]; omega

theorem nearestEven_mono {n d n' d' : Nat} (positive : 0 < d) (positive' : 0 < d')
    (ordered : n * d' ≤ n' * d) : nearestEven n d ≤ nearestEven n' d' := by
  by_contra above
  obtain ⟨-, low⟩ := nearestEven_spec positive n
  obtain ⟨high, -⟩ := nearestEven_spec positive' n'
  generalize nearestEven n d = k at *
  generalize nearestEven n' d' = k' at *
  have apart : d * d' * (k' + 1) ≤ d * d' * k := Nat.mul_le_mul_left _ (by omega)
  have below : d * d' * (2 * k) ≤ 2 * (n * d') + d * d' := by
    have scaled := Nat.mul_le_mul_right d' (show d * (2 * k) ≤ 2 * n + d by omega)
    linarith
  have beyond : 2 * (n' * d) ≤ d * d' * (2 * k' + 1) := by
    have scaled := Nat.mul_le_mul_right d (show 2 * n' ≤ d' * (2 * k' + 1) by omega)
    linarith
  -- Only with two ties next to each other could the order turn, and then both would be even.
  have next : k = k' + 1 := by
    have cancelled : d * d' * k ≤ d * d' * (k' + 1) := by linarith
    have := Nat.le_of_mul_le_mul_left cancelled (Nat.mul_pos positive positive')
    omega
  have tie : d * (2 * k) = 2 * n + d := by
    subst next
    have scaled : (2 * n + d) * d' ≤ d * (2 * (k' + 1)) * d' := by linarith
    have := Nat.le_of_mul_le_mul_right scaled positive'
    omega
  have tie' : 2 * n' = d' * (2 * k' + 1) := by
    subst next
    have scaled : d' * (2 * k' + 1) * d ≤ 2 * n' * d := by linarith
    have := Nat.le_of_mul_le_mul_right scaled positive
    omega
  omega

/-- The grain of a rounded number is that of the quotient, or the number is the next power of two.
-/
theorem roundQuotient_le_two_pow (n d : Nat) :
    roundQuotient n d ≤ 2 ^ (53 + spareBits (n / d)) := by
  have up := nearestEven_le n (d * 2 ^ spareBits (n / d))
  have size : n / d < 2 ^ (53 + spareBits (n / d)) := by
    apply Nat.lt_of_lt_of_le Nat.lt_log2_self
    exact Nat.pow_le_pow_right (by decide) (by unfold spareBits; omega)
  rw [Nat.pow_add, ← Nat.div_lt_iff_lt_mul (Nat.two_pow_pos _), Nat.div_div_eq_div_mul] at size
  rw [Nat.pow_add]
  exact Nat.mul_le_mul_right _ (by omega)

theorem two_pow_le_roundQuotient {n d : Nat} (coarse : spareBits (n / d) ≠ 0) :
    2 ^ (52 + spareBits (n / d)) ≤ roundQuotient n d := by
  have down := le_nearestEven n (d * 2 ^ spareBits (n / d))
  have nonzero : n / d ≠ 0 := by
    intro zero
    rw [zero] at coarse
    exact coarse rfl
  have size : 2 ^ (52 + spareBits (n / d)) ≤ n / d := by
    have bits : 52 + spareBits (n / d) = (n / d).log2 := by unfold spareBits at *; omega
    rw [bits]
    exact Nat.log2_self_le nonzero
  rw [Nat.pow_add, ← Nat.le_div_iff_mul_le (Nat.two_pow_pos _), Nat.div_div_eq_div_mul] at size
  rw [Nat.pow_add]
  exact Nat.mul_le_mul_right _ (Nat.le_trans size down)

theorem roundQuotient_mono {n d n' d' : Nat} (positive : 0 < d) (positive' : 0 < d')
    (ordered : n * d' ≤ n' * d) : roundQuotient n d ≤ roundQuotient n' d' := by
  have quotients : n / d ≤ n' / d' := by
    rw [Nat.le_div_iff_mul_le positive']
    apply Nat.le_of_mul_le_mul_right _ positive
    calc
      n / d * d' * d = n / d * d * d' := Nat.mul_right_comm _ _ _
      _ ≤ n * d' := Nat.mul_le_mul_right _ (Nat.div_mul_le_self n d)
      _ ≤ n' * d := ordered
  have grains := spareBits_mono quotients
  rcases Nat.eq_or_lt_of_le grains with same | finer
  · have power := Nat.two_pow_pos (spareBits (n' / d'))
    unfold roundQuotient
    rw [same]
    apply Nat.mul_le_mul_right
    apply nearestEven_mono (Nat.mul_pos positive power) (Nat.mul_pos positive' power)
    rw [← Nat.mul_assoc, ← Nat.mul_assoc]
    exact Nat.mul_le_mul_right _ ordered
  · calc
      roundQuotient n d ≤ 2 ^ (53 + spareBits (n / d)) := roundQuotient_le_two_pow n d
      _ ≤ 2 ^ (52 + spareBits (n' / d')) := Nat.pow_le_pow_right (by decide) (by omega)
      _ ≤ roundQuotient n' d' := two_pow_le_roundQuotient (by omega)

/-! ## The error -/

theorem abs_nearestEven_sub_le {d : Nat} (positive : 0 < d) (n : Nat) :
    |(nearestEven n d : Rat) - n / d| ≤ 1 / 2 := by
  obtain ⟨high, low⟩ := nearestEven_spec positive n
  have divisor : (0 : Rat) < d := Nat.cast_pos.2 positive
  have upper : 2 * (n : Rat) ≤ d * (2 * nearestEven n d + 1) := by
    exact_mod_cast (show 2 * n ≤ d * (2 * nearestEven n d + 1) by omega)
  have lower : (d : Rat) * (2 * nearestEven n d) ≤ 2 * n + d := by
    exact_mod_cast (show d * (2 * nearestEven n d) ≤ 2 * n + d by omega)
  rw [abs_le]
  constructor
  · have quotient : (n : Rat) / d ≤ nearestEven n d + 1 / 2 := by
      rw [div_le_iff₀ divisor]
      linarith
    linarith
  · have quotient : (nearestEven n d : Rat) - 1 / 2 ≤ n / d := by
      rw [le_div_iff₀ divisor]
      linarith
    linarith

theorem abs_roundQuotient_sub_le {d : Nat} (positive : 0 < d) (n : Nat) :
    |(roundQuotient n d : Rat) - n / d| ≤ 2 ^ spareBits (n / d) / 2 := by
  have grain : (0 : Rat) < 2 ^ spareBits (n / d) := by positivity
  have near := abs_nearestEven_sub_le (Nat.mul_pos positive (Nat.two_pow_pos (spareBits (n / d)))) n
  have split : (roundQuotient n d : Rat) - n / d =
      (nearestEven n (d * 2 ^ spareBits (n / d)) - n / (d * 2 ^ spareBits (n / d) : Nat)) *
        2 ^ spareBits (n / d) := by
    have divisor : (d : Rat) ≠ 0 := Nat.cast_ne_zero.2 (Nat.ne_of_gt positive)
    rw [roundQuotient]
    push_cast
    field_simp
  rw [split, abs_mul, abs_of_pos grain]
  calc
    _ ≤ 1 / 2 * 2 ^ spareBits (n / d) := mul_le_mul_of_nonneg_right near grain.le
    _ = 2 ^ spareBits (n / d) / 2 := by ring

/-! ## Sizes in ones -/

def ones (units : Nat) : Rat := units / unitsPerOne

theorem unitsPerOne_cast_pos : (0 : Rat) < unitsPerOne := Nat.cast_pos.2 unitsPerOne_pos

theorem ones_add (m n : Nat) : ones (m + n) = ones m + ones n := by
  rw [ones, Nat.cast_add, add_div]
  rfl

theorem ones_mul (m n : Nat) : ones (m * n) = m * ones n := by
  rw [ones, Nat.cast_mul, mul_div_assoc]
  rfl

@[simp] theorem ones_unitsPerOne : ones unitsPerOne = 1 := div_self unitsPerOne_cast_pos.ne'

theorem ones_le_ones {m n : Nat} : ones m ≤ ones n ↔ m ≤ n := by
  rw [ones, ones, div_le_div_iff_of_pos_right unitsPerOne_cast_pos, Nat.cast_le]

theorem ones_lt_ones {m n : Nat} : ones m < ones n ↔ m < n := by
  rw [ones, ones, div_lt_div_iff_of_pos_right unitsPerOne_cast_pos, Nat.cast_lt]

theorem ones_div_lt_iff {d : Nat} (positive : 0 < d) (n k : Nat) :
    ones n / d < k ↔ n / d < k * unitsPerOne := by
  rw [Nat.div_lt_iff_lt_mul positive, div_lt_iff₀ (Nat.cast_pos.2 positive), ones,
    div_lt_iff₀ unitsPerOne_cast_pos, ← Nat.cast_mul, ← Nat.cast_mul, Nat.cast_lt,
    Nat.mul_right_comm]

theorem ones_roundQuotient_sub (n d : Nat) :
    ones (roundQuotient n d) - ones n / d = (roundQuotient n d - n / d) / unitsPerOne := by
  rw [ones, ones]
  ring

theorem spareBits_le {q j : Nat} (small : q < 2 ^ j * unitsPerOne) : spareBits q ≤ j + 1021 := by
  by_cases zero : q = 0
  · subst zero
    exact Nat.zero_le _
  · rw [unitsPerOne, ← Nat.pow_add, ← Nat.log2_lt zero] at small
    unfold spareBits unitBits at *
    omega

theorem half_grain (j : Nat) : (2 : Rat) ^ (j + 1021) / 2 = 2 ^ j / 2 ^ 54 * unitsPerOne := by
  have exponents : j + 1021 + 53 = j + unitBits := by
    unfold unitBits
    omega
  have split : (2 : Rat) ^ (j + 1021) * 2 ^ 53 = 2 ^ j * unitsPerOne := by
    rw [← pow_add, exponents, pow_add, unitsPerOne, Nat.cast_pow, Nat.cast_ofNat]
  have half : (2 : Rat) ^ 54 = 2 ^ 53 * 2 := by norm_num
  rw [div_mul_eq_mul_div, ← split, half]
  field_simp

theorem abs_ones_sub_le {n d j : Nat} (positive : 0 < d) (small : ones n / d < 2 ^ j) :
    |ones (roundQuotient n d) - ones n / d| ≤ 2 ^ j / 2 ^ 54 := by
  have grain : (2 : Rat) ^ spareBits (n / d) ≤ 2 ^ (j + 1021) := by
    apply pow_le_pow_right₀ (by norm_num)
    apply spareBits_le
    rw [← ones_div_lt_iff positive]
    exact_mod_cast small
  rw [ones_roundQuotient_sub, abs_div, abs_of_pos unitsPerOne_cast_pos,
    div_le_iff₀ unitsPerOne_cast_pos, ← half_grain]
  exact le_trans (abs_roundQuotient_sub_le positive n)
    (div_le_div_of_nonneg_right grain zero_le_two)

/-- From one on a double is off by at most the part 2^-53 of the number. -/
theorem abs_ones_sub_le_mul {n d : Nat} (positive : 0 < d) (large : 1 ≤ ones n / d) :
    |ones (roundQuotient n d) - ones n / d| ≤ ones n / d / 2 ^ 53 := by
  have size : unitsPerOne ≤ n / d := by
    by_contra below
    have small := (ones_div_lt_iff positive n 1).2 (by omega)
    rw [Nat.cast_one] at small
    linarith
  have nonzero : n / d ≠ 0 := by
    have := unitsPerOne_pos
    omega
  have grain : (2 : Rat) ^ spareBits (n / d) * 2 ^ 52 ≤ n / d := by
    have bits : spareBits (n / d) + 52 = (n / d).log2 := by
      have wide : unitBits ≤ (n / d).log2 := (Nat.le_log2 nonzero).2 size
      unfold spareBits unitBits at *
      omega
    calc
      (2 : Rat) ^ spareBits (n / d) * 2 ^ 52 = ((2 ^ (n / d).log2 : Nat) : Rat) := by
        rw [← pow_add, bits, Nat.cast_pow, Nat.cast_ofNat]
      _ ≤ (n / d : Nat) := Nat.cast_le.2 (Nat.log2_self_le nonzero)
      _ ≤ n / d := Nat.cast_div_le
  have near := abs_roundQuotient_sub_le positive n
  have scaled : ones n / d / 2 ^ 53 * unitsPerOne = n / d / 2 ^ 53 := by
    have nonzero := unitsPerOne_cast_pos.ne'
    rw [ones]
    field_simp
  rw [ones_roundQuotient_sub, abs_div, abs_of_pos unitsPerOne_cast_pos,
    div_le_iff₀ unitsPerOne_cast_pos, scaled]
  have twice : (2 : Rat) ^ 53 = 2 ^ 52 * 2 := by norm_num
  rw [twice, ← div_div]
  have bound : (2 : Rat) ^ spareBits (n / d) ≤ n / d / 2 ^ 52 := (le_div_iff₀ (by norm_num)).2 grain
  linarith

end DeskCalculator.Binary64
