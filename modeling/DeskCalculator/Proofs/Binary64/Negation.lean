import DeskCalculator.Binary64.Operations
/-!
Negation of doubles. Rounding does not look at the sign, so the sign of a factor or of a dividend is
a sign of the result, for infinities and zeros as well.
-/
namespace DeskCalculator.Binary64

theorem neg_ofQuotient (negative : Bool) (n d : Nat) :
    neg (ofQuotient negative n d) = ofQuotient (!negative) n d := by
  unfold ofQuotient
  split <;> rfl

theorem neg_mul (x y : Binary64) : mul (neg x) y = neg (mul x y) := by
  cases x with
  | notANumber => rfl
  | infinite s =>
    cases y with
    | notANumber => rfl
    | infinite t => exact congrArg infinite (Bool.not_bne s t)
    | finite t n _ =>
      by_cases zero : n = 0
      · simp only [neg, mul, if_pos zero]
      · simp only [neg, mul, if_neg zero, Bool.not_bne]
  | finite s m _ =>
    cases y with
    | notANumber => rfl
    | infinite t =>
      by_cases zero : m = 0
      · simp only [neg, mul, if_pos zero]
      · simp only [neg, mul, if_neg zero, Bool.not_bne]
    | finite t n _ =>
      rw [mul, neg_ofQuotient, ← Bool.not_bne]
      rfl

theorem neg_div (x y : Binary64) : div (neg x) y = neg (div x y) := by
  cases x with
  | notANumber => rfl
  | infinite s =>
    cases y with
    | notANumber | infinite => rfl
    | finite t => exact congrArg infinite (Bool.not_bne s t)
  | finite s m _ =>
    cases y with
    | notANumber => rfl
    | infinite t => exact congrArg zero (Bool.not_bne s t)
    | finite t n _ =>
      by_cases divisor : n = 0
      · by_cases dividend : m = 0
        · simp only [neg, div, if_pos divisor, if_pos dividend]
        · simp only [neg, div, if_pos divisor, if_neg dividend, Bool.not_bne]
      · rw [div, if_neg divisor, neg_ofQuotient, ← Bool.not_bne]
        exact if_neg divisor

/-! ## The sign of zero -/

def dropZeroSign (x : Binary64) : Binary64 := if x.isZero then zero false else x

theorem dropZeroSign_of_ne_zero {s : Bool} {m : Nat} (nonzero : m ≠ 0) (storable : Storable m) :
    (finite s m storable).dropZeroSign = finite s m storable :=
  if_neg (by simp [isZero, nonzero])

theorem dropZeroSign_neg (x : Binary64) : x.neg.dropZeroSign = x.dropZeroSign.neg.dropZeroSign := by
  unfold dropZeroSign
  by_cases vanishes : x.isZero = true
  · rw [isZero_neg, if_pos vanishes, if_pos vanishes]
    rfl
  · rw [isZero_neg, if_neg vanishes, if_neg vanishes, isZero_neg, if_neg vanishes]

theorem dropZeroSign_neg_comm {x y : Binary64} (opposite : x.dropZeroSign = y.neg.dropZeroSign) :
    y.dropZeroSign = x.neg.dropZeroSign := by
  rw [dropZeroSign_neg, opposite, ← dropZeroSign_neg, neg_neg]

end DeskCalculator.Binary64
