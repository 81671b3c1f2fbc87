import DeskCalculator.Proofs.Binary64.Decimals
import DeskCalculator.Proofs.Binary64.Negation
/-!
Rounding on both sides of zero. The nudge is added with the same sign to either, so it takes from
the magnitude of a negative number what it gives to a positive one. Opposite numbers are rounded to
opposite numbers unless a half lies between what the two are scaled to.
-/
namespace DeskCalculator.Binary64

def magnitude : Binary64 → Nat
  | .finite _ m _ => m
  | _ => 0

/-- A half lies above what the magnitude without the nudge is scaled to, and not above what the
magnitude with it is scaled to. -/
def HalfInReach (places units : Nat) : Prop :=
  ∃ k, 2 * scaledUnits places (lowered units) < (2 * k + 1) * unitsPerOne ∧
    (2 * k + 1) * unitsPerOne ≤ 2 * scaledUnits places (nudged units)

theorem halfInReach_iff (places units : Nat) :
    HalfInReach places units ↔
      nearestWhole (scaledUnits places (lowered units)) <
        nearestWhole (scaledUnits places (nudged units)) := by
  have half (k : Nat) : 2 * (k + 1) * unitsPerOne = (2 * k + 1) * unitsPerOne + unitsPerOne := by
    rw [← Nat.add_one_mul]
    rfl
  have below (k : Nat) : nearestWhole (scaledUnits places (lowered units)) < k + 1 ↔
      2 * scaledUnits places (lowered units) < (2 * k + 1) * unitsPerOne := by
    rw [nearestWhole_lt_iff, half, Nat.add_lt_add_iff_right]
  have reached (k : Nat) : k + 1 ≤ nearestWhole (scaledUnits places (nudged units)) ↔
      (2 * k + 1) * unitsPerOne ≤ 2 * scaledUnits places (nudged units) := by
    rw [le_nearestWhole_iff, half, Nat.add_le_add_iff_right]
  constructor
  · intro ⟨k, low, high⟩
    exact Nat.lt_of_lt_of_le ((below k).2 low) ((reached k).2 high)
  · intro apart
    exact ⟨_, (below _).1 (Nat.lt_succ_self _), (reached _).1 apart⟩

/-! ## The order of the steps -/

theorem roundQuotient_one_mono {m n : Nat} (ordered : m ≤ n) :
    roundQuotient m 1 ≤ roundQuotient n 1 :=
  roundQuotient_mono Nat.one_pos Nat.one_pos (Nat.mul_le_mul_right 1 ordered)

theorem scaledUnits_mono {m n : Nat} (ordered : m ≤ n) (places : Nat) :
    scaledUnits places m ≤ scaledUnits places n :=
  roundQuotient_one_mono (Nat.mul_le_mul_right _ ordered)

theorem nearestWhole_mono {m n : Nat} (ordered : m ≤ n) : nearestWhole m ≤ nearestWhole n :=
  Nat.div_le_div_right (Nat.add_le_add_right (Nat.mul_le_mul_left 2 ordered) _)

theorem lowered_le_nudged (m : Nat) : lowered m ≤ nudged m :=
  roundQuotient_one_mono (by omega)

/-! ## Numbers up to four -/

theorem storable_four : Storable (4 * unitsPerOne) := storable_mul_unitsPerOne (by decide)

theorem nudged_le {m : Nat} (small : m ≤ 4 * unitsPerOne) : nudged m ≤ 4 * unitsPerOne := by
  calc
    nudged m ≤ nudged (4 * unitsPerOne) := roundQuotient_one_mono (Nat.add_le_add_right small _)
    _ = 4 * unitsPerOne := nudged_eq_self storable_four (Nat.le_refl _)

section Small

variable {places a b m : Nat} (few : places ≤ 15)

include few

theorem storable_scaledFour : Storable (4 * 10 ^ places * unitsPerOne) := by
  apply storable_mul_unitsPerOne
  calc
    4 * 10 ^ places ≤ 4 * 10 ^ (15 : Nat) := Nat.mul_le_mul_left 4 (powerOfTen_le few)
    _ ≤ 2 ^ (53 : Nat) := by decide

theorem scaledUnits_le (small : a ≤ 4 * unitsPerOne) :
    scaledUnits places a ≤ 4 * 10 ^ places * unitsPerOne := by
  apply roundQuotient_le (storable_scaledFour few)
  calc
    a * 10 ^ places ≤ 4 * unitsPerOne * 10 ^ places := Nat.mul_le_mul_right _ small
    _ = 1 * (4 * 10 ^ places * unitsPerOne) := by rw [Nat.one_mul, Nat.mul_right_comm]

theorem scaledUnits_lt (small : a ≤ 4 * unitsPerOne) : scaledUnits places a < 2 ^ rangeBits :=
  Nat.lt_of_le_of_lt (scaledUnits_le few small) (storable_scaledFour few).1

theorem nearestWhole_scaledUnits_le (small : a ≤ 4 * unitsPerOne) :
    nearestWhole (scaledUnits places a) ≤ 4 * 10 ^ places := by
  have bound := nearestWhole_mono (scaledUnits_le few small)
  rwa [nearestWhole_mul] at bound

theorem eq_of_roundQuotient_eq (left : a ≤ 4 * 10 ^ places) (right : b ≤ 4 * 10 ^ places)
    (same : roundQuotient (a * unitsPerOne) (10 ^ places) =
      roundQuotient (b * unitsPerOne) (10 ^ places)) : a = b := by
  have power : (0 : Rat) < 10 ^ places := by positivity
  have near {n : Nat} (small : n ≤ 4 * 10 ^ places) :
      |ones (roundQuotient (n * unitsPerOne) (10 ^ places)) - n / 10 ^ places| ≤
        2 ^ 3 / 2 ^ 54 := by
    have value : ones (n * unitsPerOne) / (10 ^ places : Nat) = n / 10 ^ places := by
      rw [ones_mul, ones_unitsPerOne, mul_one, Nat.cast_pow, Nat.cast_ofNat]
    have bound : (n : Rat) ≤ 4 * 10 ^ places := by exact_mod_cast small
    rw [← value]
    apply abs_ones_sub_le (powerOfTen_pos places)
    rw [value, div_lt_iff₀ power]
    linarith
  have apart {m n : Nat} (less : m < n) :
      1 / 10 ^ 15 ≤ (n : Rat) / 10 ^ places - m / 10 ^ places := by
    have next : (m : Rat) + 1 ≤ n := by exact_mod_cast less
    calc
      (1 : Rat) / 10 ^ 15 ≤ 1 / 10 ^ places :=
        one_div_le_one_div_of_le power (pow_le_pow_right₀ (by norm_num) few)
      _ ≤ (n - m) / 10 ^ places := div_le_div_of_nonneg_right (by linarith) power.le
      _ = n / 10 ^ places - m / 10 ^ places := sub_div _ _ _
  have off := abs_le.1 (near left)
  have off' := abs_le.1 (near right)
  rw [same] at off
  -- Twice the error of scaling back is less than one in the last place.
  have closer : (2 : Rat) * (2 ^ 3 / 2 ^ 54) < 1 / 10 ^ 15 := by norm_num
  apply Nat.le_antisymm
  · by_contra above
    have := apart (Nat.lt_of_not_le above)
    linarith
  · by_contra below
    have := apart (Nat.lt_of_not_le below)
    linarith

theorem roundDecimals_positive (storable : Storable m) (small : m ≤ 4 * unitsPerOne) :
    (finite false m storable).roundDecimals places =
      ofQuotient false (nearestWhole (scaledUnits places (nudged m)) * unitsPerOne)
        (10 ^ places) := by
  have held : Storable (nudged m) :=
    ⟨Nat.lt_of_le_of_lt (nudged_le small) storable_four.1, spareBits_roundQuotient_dvd _ _⟩
  have added : add (finite false m storable) epsilon = finite false (nudged m) held := by
    rw [add_epsilon]
    exact ofQuotient_eq false rfl held
  rw [roundDecimals_of_add few added, if_pos (scaledUnits_lt few (nudged_le small))]

theorem nearestWhole_of_le_nudge (tiny : a ≤ nudgeUnits) :
    nearestWhole (scaledUnits places a) = 0 := by
  -- Nothing up to the nudge itself comes near a half.
  have quarter : Storable (2 ^ (nudgeBits + 50)) := storable_two_pow (by decide)
  have bound : scaledUnits places a ≤ 2 ^ (nudgeBits + 50) := by
    apply roundQuotient_le quarter
    calc
      a * 10 ^ places ≤ nudgeUnits * 2 ^ (50 : Nat) := by
        apply Nat.mul_le_mul tiny
        exact Nat.le_trans (powerOfTen_le few) (by decide)
      _ = 1 * 2 ^ (nudgeBits + 50) := by rw [Nat.one_mul, Nat.pow_add, nudgeUnits]
  have one : unitsPerOne = 4 * 2 ^ (nudgeBits + 50) := by
    rw [unitsPerOne_eq, Nat.pow_add, nudgeUnits]
    omega
  have positive := Nat.two_pow_pos (nudgeBits + 50)
  rw [← Nat.lt_one_iff, nearestWhole_lt_iff]
  omega

theorem roundDecimals_negative (storable : Storable m) (small : m ≤ 4 * unitsPerOne) :
    ((finite true m storable).roundDecimals places).dropZeroSign =
      (ofQuotient true (nearestWhole (scaledUnits places (lowered m)) * unitsPerOne)
        (10 ^ places)).dropZeroSign := by
  have nudge : nudgeUnits ≤ 4 * unitsPerOne := by
    rw [unitsPerOne_eq]
    omega
  by_cases tiny : m ≤ nudgeUnits
  · have turned : roundQuotient (nudgeUnits - m) 1 ≤ nudgeUnits :=
      roundQuotient_le storable_nudgeUnits (by omega)
    have held : Storable (roundQuotient (nudgeUnits - m) 1) :=
      storable_roundQuotient storable_nudgeUnits (by omega)
    have added : add (finite true m storable) epsilon = finite false _ held := by
      rw [add_epsilon_neg, if_pos tiny]
      exact ofQuotient_eq false rfl held
    have nothing : lowered m ≤ nudgeUnits := roundQuotient_le storable_nudgeUnits (by omega)
    rw [roundDecimals_of_add few added,
      if_pos (scaledUnits_lt few (Nat.le_trans turned nudge)), nearestWhole_of_le_nudge few turned,
      nearestWhole_of_le_nudge few nothing, Nat.zero_mul, ofQuotient_zero, ofQuotient_zero]
    rfl
  · have below : lowered m ≤ 4 * unitsPerOne :=
      Nat.le_trans (lowered_le_nudged m) (nudged_le small)
    have held : Storable (lowered m) := storable_roundQuotient storable_four (by omega)
    have added : add (finite true m storable) epsilon = finite true (lowered m) held := by
      rw [add_epsilon_neg, if_neg tiny]
      exact ofQuotient_eq true rfl held
    rw [roundDecimals_of_add few added, if_pos (scaledUnits_lt few below)]

end Small

/-! ## All numbers -/

theorem magnitude_dropZeroSign (x : Binary64) : x.dropZeroSign.magnitude = x.magnitude := by
  unfold dropZeroSign
  by_cases vanishes : x.isZero = true
  · rw [if_pos vanishes]
    cases x with
    | notANumber | infinite => rfl
    | finite s m storable => exact (beq_iff_eq.1 vanishes).symm
  · rw [if_neg vanishes]

theorem roundDecimals_large {places m : Nat} (few : places ≤ 15) (storable : Storable m)
    (large : 4 * unitsPerOne < m) :
    (finite true m storable).roundDecimals places =
      ((finite false m storable).roundDecimals places).neg := by
  have positive : add (finite false m storable) epsilon = finite false m storable := by
    rw [add_epsilon]
    exact ofQuotient_eq false (nudged_eq_self storable (Nat.le_of_lt large)) storable
  have above : ¬m ≤ nudgeUnits := by
    rw [unitsPerOne_eq] at large
    omega
  have negative : add (finite true m storable) epsilon = finite true m storable := by
    rw [add_epsilon_neg, if_neg above]
    exact ofQuotient_eq true (lowered_eq_self storable large) storable
  rw [roundDecimals_of_add few negative, roundDecimals_of_add few positive]
  by_cases inRange : scaledUnits places m < 2 ^ rangeBits
  · rw [if_pos inRange, if_pos inRange, neg_ofQuotient]
    rfl
  · rw [if_neg inRange, if_neg inRange]
    rfl

theorem eq_of_dropZeroSign_eq {places a b : Nat} {s t : Bool} (few : places ≤ 15)
    (left : a ≤ 4 * 10 ^ places) (right : b ≤ 4 * 10 ^ places)
    (same : (ofQuotient s (a * unitsPerOne) (10 ^ places)).dropZeroSign =
      (ofQuotient t (b * unitsPerOne) (10 ^ places)).dropZeroSign) : a = b := by
  have held {n : Nat} (bound : n ≤ 4 * 10 ^ places) :
      Storable (roundQuotient (n * unitsPerOne) (10 ^ places)) := by
    apply storable_roundQuotient storable_four
    calc
      n * unitsPerOne ≤ 4 * 10 ^ places * unitsPerOne := Nat.mul_le_mul_right _ bound
      _ = 10 ^ places * (4 * unitsPerOne) := by rw [Nat.mul_comm 4, Nat.mul_assoc]
  rw [ofQuotient_eq s rfl (held left), ofQuotient_eq t rfl (held right)] at same
  have magnitudes := congrArg magnitude same
  rw [magnitude_dropZeroSign, magnitude_dropZeroSign] at magnitudes
  exact eq_of_roundQuotient_eq few left right magnitudes

theorem opposite_iff {places m : Nat} (few : places ≤ 15) (storable : Storable m) :
    ((finite true m storable).roundDecimals places).dropZeroSign =
        ((finite false m storable).roundDecimals places).neg.dropZeroSign ↔
      ¬HalfInReach places m := by
  rw [halfInReach_iff]
  by_cases large : 4 * unitsPerOne < m
  · rw [roundDecimals_large few storable large, lowered_eq_self storable large,
      nudged_eq_self storable (Nat.le_of_lt large)]
    exact iff_of_true rfl (Nat.lt_irrefl _)
  · have small : m ≤ 4 * unitsPerOne := Nat.le_of_not_lt large
    have order := nearestWhole_mono (scaledUnits_mono (lowered_le_nudged m) places)
    have high := nearestWhole_scaledUnits_le few (nudged_le small)
    rw [roundDecimals_negative few storable small, roundDecimals_positive few storable small,
      neg_ofQuotient, Bool.not_false]
    generalize nearestWhole (scaledUnits places (lowered m)) = low at *
    generalize nearestWhole (scaledUnits places (nudged m)) = top at *
    constructor
    · intro same
      have equal : low = top := eq_of_dropZeroSign_eq few (Nat.le_trans order high) high same
      rw [equal]
      exact Nat.lt_irrefl top
    · intro notLess
      rw [Nat.le_antisymm order (Nat.le_of_not_lt notLess)]

/-- Opposite numbers are rounded to opposite numbers, but for the sign of a zero, exactly if no half
is in reach. -/
theorem roundDecimals_neg_iff {places : Nat} (few : places ≤ 15) {x : Binary64}
    (finite : x.isFinite = true) :
    (x.neg.roundDecimals places).dropZeroSign = (x.roundDecimals places).neg.dropZeroSign ↔
      ¬HalfInReach places x.magnitude := by
  cases x with
  | notANumber | infinite => cases finite
  | finite s m storable =>
    cases s with
    | false => exact opposite_iff few storable
    | true =>
      exact Iff.trans ⟨dropZeroSign_neg_comm, dropZeroSign_neg_comm⟩ (opposite_iff few storable)

end DeskCalculator.Binary64
