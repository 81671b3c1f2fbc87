/-!
Double-precision numbers as exact integers. A finite number is a sign and a count of the smallest
positive double, 2^-1074, and every operation is the exact rational result rounded once to the
nearest number of 53 significant bits, a tie going to the even neighbour.
-/
namespace DeskCalculator

namespace Binary64

/-- Powers of natural numbers are those of the core library, whatever else is imported. -/
scoped instance (priority := high) natPow : Pow Nat Nat := instPowNat

def spareBits (units : Nat) : Nat := units.log2 - 52

def rangeBits : Nat := 2098

def Storable (units : Nat) : Prop := units < 2 ^ rangeBits ∧ 2 ^ spareBits units ∣ units

instance (units : Nat) : Decidable (Storable units) :=
  inferInstanceAs (Decidable (_ ∧ _))

def nearestEven (n d : Nat) : Nat :=
  if 2 * (n % d) < d then n / d
  else if d < 2 * (n % d) then n / d + 1
  else if n / d % 2 = 0 then n / d else n / d + 1

def roundQuotient (n d : Nat) : Nat :=
  nearestEven n (d * 2 ^ spareBits (n / d)) * 2 ^ spareBits (n / d)

theorem nearestEven_le (n d : Nat) : nearestEven n d ≤ n / d + 1 := by
  unfold nearestEven
  split
  · exact Nat.le_succ _
  · split
    · exact Nat.le_refl _
    · split
      · exact Nat.le_succ _
      · exact Nat.le_refl _

theorem le_nearestEven (n d : Nat) : n / d ≤ nearestEven n d := by
  unfold nearestEven
  split
  · exact Nat.le_refl _
  · split
    · exact Nat.le_succ _
    · split
      · exact Nat.le_refl _
      · exact Nat.le_succ _

theorem spareBits_dvd {r k : Nat} (small : r ≤ 2 ^ (53 : Nat)) :
    2 ^ spareBits (r * 2 ^ k) ∣ r * 2 ^ k := by
  by_cases full : r = 2 ^ (53 : Nat)
  · subst full
    rw [← Nat.pow_add]
    exact Nat.pow_dvd_pow 2 (by simp only [spareBits, Nat.log2_two_pow]; omega)
  · by_cases zero : r = 0
    · simp [zero]
    · have below : r * 2 ^ k < 2 ^ (53 + k) := by
        rw [Nat.pow_add]
        exact Nat.mul_lt_mul_of_pos_right (by omega) (Nat.two_pow_pos k)
      have bits : (r * 2 ^ k).log2 < 53 + k :=
        (Nat.log2_lt (Nat.mul_ne_zero zero (Nat.ne_of_gt (Nat.two_pow_pos k)))).2 below
      exact Nat.dvd_trans (Nat.pow_dvd_pow 2 (by unfold spareBits; omega)) (Nat.dvd_mul_left _ _)

theorem spareBits_roundQuotient_dvd (n d : Nat) :
    2 ^ spareBits (roundQuotient n d) ∣ roundQuotient n d := by
  unfold roundQuotient
  have cut : n / (d * 2 ^ spareBits (n / d)) = n / d / 2 ^ spareBits (n / d) :=
    (Nat.div_div_eq_div_mul _ _ _).symm
  have up := nearestEven_le n (d * 2 ^ spareBits (n / d))
  rw [cut] at up
  generalize n / d = q at *
  apply spareBits_dvd
  refine Nat.le_trans up ?_
  have size : q < 2 ^ (q.log2 + 1) := Nat.lt_log2_self
  have bound : q / 2 ^ spareBits q < 2 ^ (53 : Nat) := by
    rw [Nat.div_lt_iff_lt_mul (Nat.two_pow_pos _), ← Nat.pow_add]
    exact Nat.lt_of_lt_of_le size (Nat.pow_le_pow_right (by omega) (by unfold spareBits; omega))
  exact bound

end Binary64

/-- A double-precision number. Finite magnitudes count units of 2^-1074, so zero has two signs and
subnormal numbers need no case of their own. -/
inductive Binary64 where
  | notANumber
  | infinite (negative : Bool)
  | finite (negative : Bool) (units : Nat) (storable : Binary64.Storable units)
  deriving DecidableEq

namespace Binary64

def zero (negative : Bool) : Binary64 :=
  .finite negative 0 ⟨Nat.two_pow_pos _, Nat.dvd_zero _⟩

def ofQuotient (negative : Bool) (n d : Nat) : Binary64 :=
  if h : roundQuotient n d < 2 ^ rangeBits then
    .finite negative (roundQuotient n d) ⟨h, spareBits_roundQuotient_dvd n d⟩
  else .infinite negative

def isFinite : Binary64 → Bool
  | .finite .. => true
  | _ => false

def isZero : Binary64 → Bool
  | .finite _ m _ => m == 0
  | _ => false

def isBelowZero : Binary64 → Bool
  | .notANumber => false
  | .infinite s => s
  | .finite s m _ => s && m != 0

@[simp] theorem isFinite_finite (s : Bool) (m : Nat) (h : Storable m) :
    (finite s m h).isFinite = true := rfl

theorem isFinite_zero (s : Bool) : (zero s).isFinite = true := rfl

end Binary64

end DeskCalculator
