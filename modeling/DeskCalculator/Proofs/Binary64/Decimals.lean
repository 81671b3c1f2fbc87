import DeskCalculator.Evaluator.Basic
import DeskCalculator.Proofs.Binary64.Rounding
/-!
What rounding to decimals does in units. A number with its nudge is scaled by a power of ten, the
nearest whole number is taken, and that is scaled back. The power is exact while doubles hold the
powers up to it. Scaling rounds, the whole number is exact, and from four on a double has no room
for the nudge.
-/
namespace DeskCalculator.Binary64

/-! ## Powers -/

def IsWhole (x : Binary64) (n : Nat) : Prop :=
  ∃ storable, x = .finite false (n * unitsPerOne) storable

theorem isWhole_ofNat {n : Nat} (storable : Storable (n * unitsPerOne)) : (ofNat n).IsWhole n :=
  ⟨storable, ofQuotient_eq false (roundQuotient_one storable) storable⟩

theorem IsWhole.mul {x y : Binary64} {m n : Nat} (left : x.IsWhole m) (right : y.IsWhole n)
    (storable : Storable (m * n * unitsPerOne)) : (x.mul y).IsWhole (m * n) := by
  obtain ⟨_, rfl⟩ := left
  obtain ⟨_, rfl⟩ := right
  have units : m * unitsPerOne * (n * unitsPerOne) = m * n * unitsPerOne * unitsPerOne := by
    rw [Nat.mul_mul_mul_comm, ← Nat.mul_assoc]
  have rounded := roundQuotient_mul_right unitsPerOne_pos (m * n * unitsPerOne) 1
  rw [Nat.one_mul, ← units, roundQuotient_one storable] at rounded
  exact ⟨storable, ofQuotient_eq false rounded storable⟩

/-- What the powering loop holds after the low bits of the exponent. The square has to be exact, and
is, only while the exponent reaches it. -/
structure IsPowering (base exponent bits : Nat) (acc : Binary64 × Binary64) : Prop where
  product : acc.1.IsWhole (base ^ (exponent % 2 ^ bits))
  square : 2 ^ bits ≤ exponent → acc.2.IsWhole (base ^ 2 ^ bits)

section Powering

variable {base exponent : Nat}

theorem isPowering_start {x : Binary64} (whole : x.IsWhole base)
    (room : Storable (base ^ 0 * unitsPerOne)) : IsPowering base exponent 0 (ofNat 1, x) := by
  rw [Nat.pow_zero] at room
  constructor
  · dsimp only
    rw [Nat.pow_zero, Nat.mod_one, Nat.pow_zero]
    exact isWhole_ofNat room
  · intro _
    rw [Nat.pow_zero, Nat.pow_one]
    exact whole

theorem IsPowering.step {bits : Nat} {acc : Binary64 × Binary64}
    (powering : IsPowering base exponent bits acc)
    (room : ∀ k ≤ exponent, Storable (base ^ k * unitsPerOne)) :
    IsPowering base exponent (bits + 1) (powerStep exponent acc bits) where
  product := by
    have low : exponent % 2 ^ (bits + 1) = exponent % 2 ^ bits + 2 ^ bits * _ := Nat.mod_pow_succ
    have bit := Nat.testBit_eq_decide_div_mod_eq (x := exponent) (i := bits)
    rcases Nat.mod_two_eq_zero_or_one (exponent / 2 ^ bits) with clear | set
    · rw [clear, Nat.mul_zero, Nat.add_zero] at low
      rw [powerStep, bit, clear, low]
      exact powering.product
    · rw [set, Nat.mul_one] at low
      rw [set] at bit
      have square := powering.square (Nat.ge_two_pow_of_testBit bit)
      have product := powering.product.mul square
      rw [← Nat.pow_add, ← low] at product
      rw [powerStep, bit]
      exact product (room _ (Nat.mod_le _ _))
  square reached := by
    have twice : 2 ^ bits + 2 ^ bits = 2 ^ (bits + 1) := by
      rw [Nat.pow_succ]
      omega
    have square := powering.square (by omega)
    have product := square.mul square
    rw [← Nat.pow_add, twice] at product
    exact product (room _ reached)

theorem isPowering_foldl {x : Binary64} (whole : x.IsWhole base)
    (room : ∀ k ≤ exponent, Storable (base ^ k * unitsPerOne)) (bits : Nat) :
    IsPowering base exponent bits ((List.range bits).foldl (powerStep exponent) (ofNat 1, x)) := by
  induction bits with
  | zero =>
    rw [List.range_zero, List.foldl_nil]
    exact isPowering_start whole (room 0 (Nat.zero_le _))
  | succ bits ih =>
    rw [List.range_succ, List.foldl_append]
    exact ih.step room

theorem isWhole_power {x : Binary64} (whole : x.IsWhole base)
    (room : ∀ k ≤ exponent, Storable (base ^ k * unitsPerOne))
    (short : exponent < 2 ^ (32 : Nat)) : (power x exponent).IsWhole (base ^ exponent) := by
  have product := (isPowering_foldl whole room 32).product
  rw [Nat.mod_eq_of_lt short] at product
  exact product

end Powering

/-! ## The constants -/

theorem powerOfTen_pos (places : Nat) : 0 < 10 ^ places := Nat.pow_pos (by decide)

theorem powerOfTen_le {places : Nat} (few : places ≤ 15) : 10 ^ places ≤ 10 ^ (15 : Nat) :=
  Nat.pow_le_pow_right (by decide) few

theorem storable_powerOfTen {places : Nat} (few : places ≤ 15) :
    Storable (10 ^ places * unitsPerOne) :=
  storable_mul_unitsPerOne (Nat.le_trans (powerOfTen_le few) (by decide))

theorem tenTo_natCast {places : Nat} (few : places ≤ 15) :
    tenTo places = .finite false (10 ^ places * unitsPerOne) (storable_powerOfTen few) := by
  have ten : (ofNat 10).IsWhole 10 := isWhole_ofNat (storable_mul_unitsPerOne (by decide))
  have room : ∀ k ≤ places, Storable (10 ^ k * unitsPerOne) := fun k less =>
    storable_powerOfTen (Nat.le_trans less few)
  obtain ⟨_, power⟩ := isWhole_power ten room (by omega)
  rw [tenTo, if_neg (by omega), Int.natAbs_natCast, power]

def nudgeBits : Nat := 1022

def nudgeUnits : Nat := 2 ^ nudgeBits

theorem storable_nudgeUnits : Storable nudgeUnits := by
  have inRange : nudgeBits < rangeBits := by decide
  exact storable_two_pow inRange

theorem nudgeUnits_pos : 0 < nudgeUnits := Nat.two_pow_pos nudgeBits

theorem unitsPerOne_eq : unitsPerOne = 2 ^ (52 : Nat) * nudgeUnits := by
  have bits : unitBits = 52 + nudgeBits := rfl
  rw [unitsPerOne, bits, Nat.pow_add, nudgeUnits]

theorem epsilon_eq : epsilon = .finite false nudgeUnits storable_nudgeUnits := by
  rw [epsilon, unitsPerOne_eq]
  exact ofQuotient_eq false (roundQuotient_of_storable (by decide) storable_nudgeUnits) _

/-! ## The nudge -/

theorem ofSignedUnits_natCast (m : Nat) : ofSignedUnits m = ofQuotient false m 1 := by
  rw [ofSignedUnits, decide_eq_false (by omega), Int.natAbs_natCast]

theorem ofSignedUnits_neg {m : Nat} (positive : 0 < m) :
    ofSignedUnits (-m) = ofQuotient true m 1 := by
  rw [ofSignedUnits, decide_eq_true (by omega), Int.natAbs_neg, Int.natAbs_natCast]

theorem add_positive {m n : Nat} (hm : Storable m) (hn : Storable n) (positive : n ≠ 0) :
    add (finite false m hm) (finite false n hn) = ofQuotient false (m + n) 1 := by
  rw [add, if_neg fun both => positive both.2, ← ofSignedUnits_natCast, Int.natCast_add]
  rfl

theorem add_opposite {m n : Nat} (hm : Storable m) (hn : Storable n) (positive : n ≠ 0) :
    add (finite true m hm) (finite false n hn) =
      if m ≤ n then ofQuotient false (n - m) 1 else ofQuotient true (m - n) 1 := by
  have sum : signedUnits true m + signedUnits false n = (n : Int) - m := by
    change -(m : Int) + n = n - m
    omega
  rw [add, if_neg fun both => positive both.2, sum]
  by_cases small : m ≤ n
  · rw [if_pos small, ← ofSignedUnits_natCast, Int.natCast_sub small]
  · rw [if_neg small, ← ofSignedUnits_neg (by omega), Int.natCast_sub (by omega), Int.neg_sub]

theorem add_epsilon {m : Nat} (storable : Storable m) :
    add (finite false m storable) epsilon = ofQuotient false (m + nudgeUnits) 1 := by
  rw [epsilon_eq, add_positive _ _ (Nat.ne_of_gt nudgeUnits_pos)]

theorem add_epsilon_neg {m : Nat} (storable : Storable m) :
    add (finite true m storable) epsilon =
      if m ≤ nudgeUnits then ofQuotient false (nudgeUnits - m) 1
      else ofQuotient true (m - nudgeUnits) 1 := by
  rw [epsilon_eq, add_opposite _ _ (Nat.ne_of_gt nudgeUnits_pos)]

/-! ## Where the nudge is lost -/

theorem roundQuotient_near {n m : Nat} (grains : 2 ^ spareBits n ∣ m)
    (below : 2 * m < 2 * n + 2 ^ spareBits n) (above : 2 * n < 2 * m + 2 ^ spareBits n) :
    roundQuotient n 1 = m := by
  obtain ⟨high, low⟩ := nearestEven_spec (Nat.two_pow_pos (spareBits n)) n
  obtain ⟨q, rfl⟩ := grains
  have same : nearestEven n (2 ^ spareBits n) = q := by
    generalize nearestEven n (2 ^ spareBits n) = k at *
    generalize 2 ^ spareBits n = grain at *
    have twice : grain * (2 * k) = 2 * (grain * k) := Nat.mul_left_comm _ _ _
    rw [Nat.mul_add_one, twice] at high
    rw [twice] at low
    have notAbove : grain * q < grain * (k + 1) := by rw [Nat.mul_add_one]; omega
    have notBelow : grain * k < grain * (q + 1) := by rw [Nat.mul_add_one]; omega
    have := Nat.lt_of_mul_lt_mul_left notAbove
    have := Nat.lt_of_mul_lt_mul_left notBelow
    omega
  rw [roundQuotient, Nat.div_one, Nat.one_mul, same, Nat.mul_comm]

theorem spareBits_add {m n : Nat} (storable : Storable m) (small : n < 2 ^ spareBits m) :
    spareBits (m + n) = spareBits m := by
  apply Nat.le_antisymm _ (spareBits_mono (Nat.le_add_right m n))
  by_cases zero : m + n = 0
  · rw [zero]
    exact Nat.zero_le _
  · obtain ⟨q, split⟩ := storable.2
    have bound : 2 ^ spareBits m * q < 2 ^ spareBits m * 2 ^ (53 : Nat) := by
      rw [← split, ← Nat.pow_add]
      apply Nat.lt_of_lt_of_le Nat.lt_log2_self
      exact Nat.pow_le_pow_right (by decide) (by unfold spareBits; omega)
    have next : m + 2 ^ spareBits m ≤ 2 ^ (spareBits m + 53) := by
      calc
        m + 2 ^ spareBits m = 2 ^ spareBits m * (q + 1) := by rw [Nat.mul_add_one, ← split]
        _ ≤ 2 ^ spareBits m * 2 ^ (53 : Nat) :=
          Nat.mul_le_mul_left _ (Nat.lt_of_mul_lt_mul_left bound)
        _ = 2 ^ (spareBits m + 53) := (Nat.pow_add _ _ _).symm
    have bits : (m + n).log2 < spareBits m + 53 := (Nat.log2_lt zero).2 (by omega)
    generalize spareBits m = grain at *
    unfold spareBits
    omega

theorem dvd_grain {c k m : Nat} (power : c = 2 ^ k) (large : c * unitsPerOne ≤ m) :
    c * nudgeUnits ∣ 2 ^ spareBits m := by
  subst power
  have nonzero : m ≠ 0 := by
    have := Nat.mul_pos (Nat.two_pow_pos k) unitsPerOne_pos
    omega
  have bits : k + unitBits ≤ m.log2 := by
    rw [unitsPerOne, ← Nat.pow_add] at large
    exact (Nat.le_log2 nonzero).2 large
  have finer : k + nudgeBits ≤ spareBits m := by
    unfold spareBits unitBits nudgeBits at *
    omega
  rw [nudgeUnits, ← Nat.pow_add]
  exact Nat.pow_dvd_pow 2 finer

theorem le_grain {m : Nat} (large : 4 * unitsPerOne ≤ m) : 4 * nudgeUnits ≤ 2 ^ spareBits m :=
  Nat.le_of_dvd (Nat.two_pow_pos _) (dvd_grain (c := 4) (k := 2) rfl large)

def nudged (units : Nat) : Nat := roundQuotient (units + nudgeUnits) 1

def lowered (units : Nat) : Nat := roundQuotient (units - nudgeUnits) 1

theorem nudged_eq_add {m : Nat} (storable : Storable m) (large : unitsPerOne ≤ m)
    (small : m < 2 * unitsPerOne) : nudged m = m + nudgeUnits := by
  have one : 1 * unitsPerOne ≤ m := by
    rw [Nat.one_mul]
    exact large
  obtain ⟨q, split⟩ := Nat.dvd_trans (dvd_grain (c := 1) (k := 0) rfl one) storable.2
  rw [Nat.one_mul] at split
  have two : 2 * unitsPerOne = nudgeUnits * 2 ^ (53 : Nat) := by
    rw [unitsPerOne_eq]
    omega
  have count : q < 2 ^ (53 : Nat) := by
    rw [two, split] at small
    exact Nat.lt_of_mul_lt_mul_left small
  have sum : m + nudgeUnits = (q + 1) * 2 ^ nudgeBits := by
    rw [split, Nat.add_one_mul, Nat.mul_comm q, nudgeUnits]
  have room : Storable (m + nudgeUnits) := by
    rw [sum]
    exact storable_mul_two_pow count (by decide)
  exact roundQuotient_one room

theorem nudged_eq_self {m : Nat} (storable : Storable m) (large : 4 * unitsPerOne ≤ m) :
    nudged m = m := by
  have positive := nudgeUnits_pos
  have grain := le_grain large
  have same : spareBits (m + nudgeUnits) = spareBits m := spareBits_add storable (by omega)
  apply roundQuotient_near
  · rw [same]
    exact storable.2
  · rw [same]
    omega
  · rw [same]
    omega

theorem lowered_eq_self {m : Nat} (storable : Storable m) (large : 4 * unitsPerOne < m) :
    lowered m = m := by
  have positive := nudgeUnits_pos
  -- The next double after four is a grain away.
  have room : 4 * unitsPerOne + 4 * nudgeUnits ≤ m := by
    have grain := dvd_grain (c := 4) (k := 2) rfl (Nat.le_of_lt large)
    obtain ⟨q, split⟩ := Nat.dvd_trans grain storable.2
    have four : 4 * unitsPerOne = 4 * nudgeUnits * 2 ^ (52 : Nat) := by
      rw [unitsPerOne_eq]
      omega
    rw [four, split] at large
    rw [four, split, ← Nat.mul_add_one]
    exact Nat.mul_le_mul_left _ (Nat.lt_of_mul_lt_mul_left large)
  have grain := le_grain (show 4 * unitsPerOne ≤ m - nudgeUnits by omega)
  apply roundQuotient_near
  · have finer := spareBits_mono (Nat.sub_le m nudgeUnits)
    exact Nat.dvd_trans (Nat.pow_dvd_pow 2 finer) storable.2
  · omega
  · omega

/-! ## The nearest whole number -/

theorem nearestWhole_of_abs {u n : Nat} (near : |ones u - n| < 1 / 2) : nearestWhole u = n := by
  obtain ⟨below, above⟩ := abs_lt.1 near
  apply Nat.le_antisymm
  · rw [← Nat.lt_succ_iff, nearestWhole_lt_iff, ← ones_lt_ones, ones_add, ones_mul, ones_mul,
      ones_unitsPerOne]
    push_cast
    linarith
  · rw [le_nearestWhole_iff, ← ones_le_ones, ones_add, ones_mul, ones_mul, ones_unitsPerOne]
    push_cast
    linarith

theorem ones_nudgeUnits : ones nudgeUnits = 1 / 2 ^ 52 := by
  have whole : (2 : Rat) ^ 52 * ones nudgeUnits = 1 := by
    rw [← ones_unitsPerOne, unitsPerOne_eq, ones_mul, Nat.cast_pow, Nat.cast_ofNat]
  rw [eq_div_iff (by norm_num), mul_comm, whole]

/-! ## The steps of rounding -/

theorem round_finite (s : Bool) {m : Nat} (storable : Storable m) :
    round (finite s m storable) =
      finite s (nearestWhole m * unitsPerOne) (storable_nearestWhole storable) :=
  ofQuotient_eq s (roundQuotient_one (storable_nearestWhole storable)) _

def scaledUnits (places units : Nat) : Nat := roundQuotient (units * 10 ^ places) 1

theorem mul_powerOfTen (s : Bool) {a places : Nat} (storable : Storable a) (few : places ≤ 15) :
    mul (finite s a storable) (tenTo places) = ofQuotient s (a * 10 ^ places) 1 := by
  rw [tenTo_natCast few, mul, Bool.bne_false, ← Nat.mul_assoc]
  apply ofQuotient_congr
  have same := roundQuotient_mul_right unitsPerOne_pos (a * 10 ^ places) 1
  rwa [Nat.one_mul] at same

theorem div_powerOfTen (s : Bool) {w places : Nat} (storable : Storable w) (few : places ≤ 15) :
    div (finite s w storable) (tenTo places) = ofQuotient s w (10 ^ places) := by
  have divisor : 10 ^ places * unitsPerOne ≠ 0 :=
    Nat.ne_of_gt (Nat.mul_pos (powerOfTen_pos places) unitsPerOne_pos)
  rw [tenTo_natCast few, div, if_neg divisor, Bool.bne_false]
  exact ofQuotient_congr s (roundQuotient_mul_right unitsPerOne_pos w (10 ^ places))

/-- The nearest whole number of the scaled number, scaled back, if the scaled number is in range. -/
theorem roundDecimals_of_add {x : Binary64} {s : Bool} {a places : Nat} {storable : Storable a}
    (few : places ≤ 15) (nudged : add x epsilon = finite s a storable) :
    x.roundDecimals places =
      if scaledUnits places a < 2 ^ rangeBits then
        ofQuotient s (nearestWhole (scaledUnits places a) * unitsPerOne) (10 ^ places)
      else x := by
  unfold roundDecimals
  dsimp only
  have product := mul_powerOfTen s storable few
  rw [nudged]
  by_cases inRange : scaledUnits places a < 2 ^ rangeBits
  · have scaled : Storable (scaledUnits places a) := ⟨inRange, spareBits_roundQuotient_dvd _ _⟩
    have held := product.trans (ofQuotient_eq (m := scaledUnits places a) s rfl scaled)
    rw [held, if_pos inRange, if_pos (isFinite_finite _ _ _), round_finite,
      div_powerOfTen s _ few]
  · have overflow : ¬roundQuotient (a * 10 ^ places) 1 < 2 ^ rangeBits := inRange
    rw [product, ofQuotient, dif_neg overflow, if_neg inRange]
    exact if_neg Bool.false_ne_true

end DeskCalculator.Binary64
