import DeskCalculator.Binary64.Operations
import Mathlib.Data.Nat.Sqrt
/-!
Which operations stay in the range of doubles. Rounding never passes a number that a double holds,
so a quotient by one or more, a whole number near a double and the root of a double are finite.
-/
namespace DeskCalculator.Binary64

/-! ## Rounding against numbers that a double holds -/

theorem spareBits_mono {m n : Nat} (ordered : m ≤ n) : spareBits m ≤ spareBits n := by
  have bits : m.log2 ≤ n.log2 := by
    by_cases zero : m = 0
    · subst zero
      exact Nat.zero_le _
    · exact (Nat.le_log2 (by omega)).2 (Nat.le_trans (Nat.log2_self_le zero) ordered)
  unfold spareBits
  omega

theorem nearestEven_le_of_le {n d q : Nat} (bound : n ≤ d * q) : nearestEven n d ≤ q := by
  have up := nearestEven_le n d
  by_cases divisor : d = 0
  · subst divisor
    obtain rfl : n = 0 := by omega
    exact Nat.zero_le q
  · have quotient : n / d ≤ q := Nat.div_le_of_le_mul bound
    by_cases below : n / d < q
    · omega
    · have whole := Nat.div_add_mod n d
      have same : n / d = q := by omega
      have rest : n % d = 0 := by rw [same] at whole; omega
      have exact_quotient : nearestEven n d = n / d := if_pos (by omega)
      omega

theorem roundQuotient_le {n d m : Nat} (storable : Storable m) (bound : n ≤ d * m) :
    roundQuotient n d ≤ m := by
  have quotient : n / d ≤ m := Nat.div_le_of_le_mul bound
  have grain : 2 ^ spareBits (n / d) ∣ m :=
    Nat.dvd_trans (Nat.pow_dvd_pow 2 (spareBits_mono quotient)) storable.2
  obtain ⟨q, rfl⟩ := grain
  unfold roundQuotient
  generalize 2 ^ spareBits (n / d) = grain at bound ⊢
  rw [Nat.mul_comm grain q]
  refine Nat.mul_le_mul_right grain (nearestEven_le_of_le ?_)
  rwa [Nat.mul_assoc]

theorem le_roundQuotient {n d m : Nat} (storable : Storable m) (positive : 0 < d)
    (bound : d * m ≤ n) : m ≤ roundQuotient n d := by
  have quotient : m ≤ n / d := by
    rw [Nat.le_div_iff_mul_le positive, Nat.mul_comm]
    exact bound
  have down := le_nearestEven n (d * 2 ^ spareBits (n / d))
  rw [← Nat.div_div_eq_div_mul] at down
  unfold roundQuotient
  generalize n / d = whole at quotient down ⊢
  refine Nat.le_trans ?_ (Nat.mul_le_mul_right _ down)
  by_cases coarse : spareBits whole ≤ spareBits m
  · obtain ⟨q, rfl⟩ := Nat.dvd_trans (Nat.pow_dvd_pow 2 coarse) storable.2
    rw [Nat.mul_comm]
    refine Nat.mul_le_mul_right _ ?_
    rw [Nat.le_div_iff_mul_le (Nat.two_pow_pos _), Nat.mul_comm]
    exact quotient
  · -- `m` has fewer bits than the quotient, whose leading bit survives the rounding.
    have wide : whole.log2 = 52 + spareBits whole := by unfold spareBits at coarse ⊢; omega
    have nonzero : whole ≠ 0 := by
      rintro rfl
      simp [spareBits] at coarse
    have small : m < 2 ^ (52 + spareBits whole) := by
      by_cases zero : m = 0
      · rw [zero]
        exact Nat.two_pow_pos _
      · rw [← Nat.log2_lt zero]
        unfold spareBits at coarse ⊢
        omega
    have large : 2 ^ (52 : Nat) ≤ whole / 2 ^ spareBits whole := by
      rw [Nat.le_div_iff_mul_le (Nat.two_pow_pos _), ← Nat.pow_add, ← wide]
      exact Nat.log2_self_le nonzero
    calc
      m ≤ 2 ^ (52 + spareBits whole) := Nat.le_of_lt small
      _ = 2 ^ (52 : Nat) * 2 ^ spareBits whole := Nat.pow_add 2 52 _
      _ ≤ whole / 2 ^ spareBits whole * 2 ^ spareBits whole := Nat.mul_le_mul_right _ large

theorem storable_roundQuotient {n d m : Nat} (storable : Storable m) (bound : n ≤ d * m) :
    Storable (roundQuotient n d) :=
  ⟨Nat.lt_of_le_of_lt (roundQuotient_le storable bound) storable.1,
    spareBits_roundQuotient_dvd n d⟩

theorem unitsPerOne_pos : 0 < unitsPerOne := Nat.two_pow_pos unitBits

theorem storable_two_pow {k : Nat} (inRange : k < rangeBits) : Storable (2 ^ k) := by
  constructor
  · exact Nat.pow_lt_pow_right (by decide) inRange
  · apply Nat.pow_dvd_pow
    rw [spareBits, Nat.log2_two_pow]
    omega

theorem storable_mul_two_pow {r k : Nat} (small : r ≤ 2 ^ (53 : Nat))
    (inRange : 53 + k < rangeBits) :
    Storable (r * 2 ^ k) := by
  constructor
  · calc
      r * 2 ^ k ≤ 2 ^ (53 : Nat) * 2 ^ k := Nat.mul_le_mul_right _ small
      _ = 2 ^ (53 + k) := (Nat.pow_add 2 53 k).symm
      _ < 2 ^ rangeBits := Nat.pow_lt_pow_right (by decide) inRange
  · exact spareBits_dvd small

theorem storable_mul_unitsPerOne {n : Nat} (small : n ≤ 2 ^ (53 : Nat)) :
    Storable (n * unitsPerOne) :=
  storable_mul_two_pow small (by decide)

theorem storable_unitsPerOne : Storable unitsPerOne := by
  have inRange : unitBits < rangeBits := by decide
  exact storable_two_pow inRange

theorem isFinite_ofQuotient (negative : Bool) {n d m : Nat} (storable : Storable m)
    (bound : n ≤ d * m) : (ofQuotient negative n d).isFinite = true := by
  have inRange : roundQuotient n d < 2 ^ rangeBits :=
    Nat.lt_of_le_of_lt (roundQuotient_le storable bound) storable.1
  rw [ofQuotient, dif_pos inRange]
  exact isFinite_finite _ _ _

theorem exists_ofQuotient_eq {negative : Bool} {n d : Nat}
    (finite : (ofQuotient negative n d).isFinite = true) :
    ∃ m storable, ofQuotient negative n d = .finite negative m storable := by
  rw [ofQuotient] at finite ⊢
  by_cases inRange : roundQuotient n d < 2 ^ rangeBits
  · rw [dif_pos inRange]
    exact ⟨_, _, rfl⟩
  · rw [dif_neg inRange] at finite
    cases finite

theorem isBelowZero_ofQuotient (n d : Nat) : (ofQuotient false n d).isBelowZero = false := by
  rw [ofQuotient]
  split <;> rfl

/-! ## Numbers of one or more -/

/-- At least one, in which an infinity counts. -/
inductive IsLarge : Binary64 → Prop where
  | infinite : IsLarge (.infinite false)
  | finite {m : Nat} (storable : Storable m) (large : unitsPerOne ≤ m) :
      IsLarge (.finite false m storable)

theorem isLarge_ofQuotient {n d : Nat} (positive : 0 < d) (bound : d * unitsPerOne ≤ n) :
    IsLarge (ofQuotient false n d) := by
  rw [ofQuotient]
  by_cases inRange : roundQuotient n d < 2 ^ rangeBits
  · rw [dif_pos inRange]
    exact .finite _ (le_roundQuotient storable_unitsPerOne positive bound)
  · rw [dif_neg inRange]
    exact .infinite

theorem isLarge_ofNat {n : Nat} (positive : 0 < n) : IsLarge (ofNat n) := by
  rw [ofNat]
  apply isLarge_ofQuotient Nat.one_pos
  rw [Nat.one_mul]
  exact Nat.le_mul_of_pos_left _ positive

theorem isLarge_mul {x y : Binary64} (left : IsLarge x) (right : IsLarge y) :
    IsLarge (mul x y) := by
  have positive := unitsPerOne_pos
  cases left with
  | infinite =>
    cases right with
    | infinite => exact .infinite
    | @finite n _ large =>
      have nonzero : n ≠ 0 := by omega
      rw [mul, if_neg nonzero]
      exact .infinite
  | @finite m _ large =>
    cases right with
    | infinite =>
      have nonzero : m ≠ 0 := by omega
      rw [mul, if_neg nonzero]
      exact .infinite
    | finite _ huge =>
      rw [mul]
      exact isLarge_ofQuotient positive (Nat.mul_le_mul large huge)

theorem isLarge_foldl_powerStep (exponent : Nat) (bits : List Nat) {acc : Binary64 × Binary64}
    (product : IsLarge acc.1) (square : IsLarge acc.2) :
    IsLarge (bits.foldl (powerStep exponent) acc).1 := by
  induction bits generalizing acc with
  | nil => exact product
  | cons bit bits ih =>
    rw [List.foldl_cons]
    apply ih
    · rw [powerStep]
      by_cases set : exponent.testBit bit = true
      · rw [if_pos set]
        exact isLarge_mul product square
      · rw [if_neg set]
        exact product
    · exact isLarge_mul square square

theorem isLarge_power {base : Binary64} (large : IsLarge base) (exponent : Nat) :
    IsLarge (power base exponent) := by
  have one : IsLarge (ofNat 1) := isLarge_ofNat Nat.one_pos
  unfold power
  generalize ofNat 1 = start at one
  exact isLarge_foldl_powerStep exponent _ one large

theorem isLarge_tenTo {exponent : Int} (nonnegative : 0 ≤ exponent) :
    IsLarge (tenTo exponent) := by
  rw [tenTo, if_neg (by omega)]
  exact isLarge_power (isLarge_ofNat (by decide)) _

/-! ## Operations that stay finite -/

theorem isFinite_div {x y : Binary64} (finite : x.isFinite = true) (large : IsLarge y) :
    (div x y).isFinite = true := by
  have positive := unitsPerOne_pos
  cases x with
  | notANumber | infinite => cases finite
  | finite s m storable =>
    cases large with
    | infinite => rw [div, isFinite_zero]
    | @finite n _ large =>
      have nonzero : n ≠ 0 := by omega
      rw [div, if_neg nonzero]
      apply isFinite_ofQuotient _ storable
      rw [Nat.mul_comm n m]
      exact Nat.mul_le_mul_left m large

theorem isBelowZero_div {m : Nat} (storable : Storable m) {y : Binary64} (large : IsLarge y) :
    (div (.finite false m storable) y).isBelowZero = false := by
  have positive := unitsPerOne_pos
  cases large with
  | infinite => rfl
  | @finite n _ large =>
    have nonzero : n ≠ 0 := by omega
    rw [div, if_neg nonzero]
    exact isBelowZero_ofQuotient _ _

def nearestWhole (units : Nat) : Nat := (2 * units + unitsPerOne) / (2 * unitsPerOne)

theorem le_nearestWhole_iff {n units : Nat} :
    n ≤ nearestWhole units ↔ 2 * n * unitsPerOne ≤ 2 * units + unitsPerOne := by
  have positive := unitsPerOne_pos
  rw [nearestWhole, Nat.le_div_iff_mul_le (by omega), Nat.mul_left_comm, Nat.mul_assoc]

theorem nearestWhole_lt_iff {n units : Nat} :
    nearestWhole units < n ↔ 2 * units + unitsPerOne < 2 * n * unitsPerOne := by
  rw [← Nat.not_le, le_nearestWhole_iff, Nat.not_le]

theorem nearestWhole_mul (n : Nat) : nearestWhole (n * unitsPerOne) = n := by
  have positive := unitsPerOne_pos
  apply Nat.le_antisymm
  · rw [← Nat.lt_succ_iff, nearestWhole_lt_iff, Nat.mul_assoc, Nat.succ_mul n]
    omega
  · rw [le_nearestWhole_iff, Nat.mul_assoc]
    exact Nat.le_add_right _ _

theorem lt_of_not_dvd {m : Nat} (storable : Storable m) (broken : ¬unitsPerOne ∣ m) :
    m < 2 ^ (53 : Nat) * unitsPerOne := by
  have nonzero : m ≠ 0 := by
    intro zero
    exact broken (zero ▸ Nat.dvd_zero _)
  have small : m.log2 < 53 + unitBits := by
    apply Nat.lt_of_not_le
    intro large
    have grain : unitsPerOne ∣ 2 ^ spareBits m := Nat.pow_dvd_pow 2 (by unfold spareBits; omega)
    exact broken (Nat.dvd_trans grain storable.2)
  rw [unitsPerOne, ← Nat.pow_add]
  exact (Nat.log2_lt nonzero).1 small

theorem storable_nearestWhole {m : Nat} (storable : Storable m) :
    Storable (nearestWhole m * unitsPerOne) := by
  by_cases whole : unitsPerOne ∣ m
  · have exact_whole := Nat.div_mul_cancel whole
    rwa [← exact_whole, nearestWhole_mul, exact_whole]
  · have bound := lt_of_not_dvd storable whole
    have below : nearestWhole m < 2 ^ (53 : Nat) + 1 := by
      rw [nearestWhole_lt_iff, Nat.mul_assoc, Nat.add_one_mul]
      have positive := unitsPerOne_pos
      omega
    exact storable_mul_unitsPerOne (Nat.le_of_lt_succ below)

theorem isFinite_round {x : Binary64} (finite : x.isFinite = true) :
    (round x).isFinite = true := by
  cases x with
  | notANumber | infinite => cases finite
  | finite s m storable =>
    exact isFinite_ofQuotient s (storable_nearestWhole storable) (Nat.le_of_eq (Nat.one_mul _).symm)

theorem isFinite_sqrt {x : Binary64} (finite : x.isFinite = true)
    (nonnegative : x.isBelowZero = false) : (sqrt x).isFinite = true := by
  -- The root of a count of units has half its bits, and half of those of one.
  cases x with
  | notANumber | infinite => cases finite
  | finite s m storable =>
    rw [sqrt]
    by_cases zero : m = 0
    · rw [if_pos zero]
      exact isFinite_finite _ _ _
    · have positive : s = false := by simpa [isBelowZero, zero] using nonnegative
      rw [if_neg zero, positive, if_neg (by decide)]
      obtain ⟨half, bits, inRange⟩ : ∃ half, half * 2 = rangeBits + unitBits ∧ half < rangeBits :=
        ⟨1586, by decide, by decide⟩
      have small : Nat.sqrt (m * unitsPerOne) < 2 ^ half := by
        rw [Nat.sqrt_lt', ← Nat.pow_mul, bits, Nat.pow_add, ← unitsPerOne]
        exact Nat.mul_lt_mul_of_pos_right storable.1 unitsPerOne_pos
      have bound := storable_two_pow inRange
      dsimp only
      by_cases square : Nat.sqrt (m * unitsPerOne) * Nat.sqrt (m * unitsPerOne) = m * unitsPerOne
      · rw [if_pos square]
        exact isFinite_ofQuotient false bound (by omega)
      · rw [if_neg square]
        exact isFinite_ofQuotient false bound (by omega)

end DeskCalculator.Binary64
