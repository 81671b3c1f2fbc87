import DeskCalculator.Proofs.Binary64.Rounding
import DeskCalculator.Proofs.Decimal.Positional
import Mathlib.Data.List.Induction
import Mathlib.Data.List.TakeWhile
/-!
Written decimals read back. The digits of a decimal give the decimal again, and the shortest decimal
of a double gives the double: a neighbour on one of the grids is taken only if it reads back, and
the exact value, which stands behind them, does.
-/
namespace DeskCalculator.Decimal

open Binary64 (Storable roundQuotient unitsPerOne)
open Expression (IsDigits IsNumeral isNumeral_iff)
open scoped Binary64

/-! ## Digits -/

theorem ofDigitChars_append (s t : Text) :
    Nat.ofDigitChars 10 (s ++ t) 0 =
      Nat.ofDigitChars 10 s 0 * 10 ^ t.length + Nat.ofDigitChars 10 t 0 := by
  rw [Nat.ofDigitChars_append, Nat.ofDigitChars_eq_ofDigitChars_zero, Nat.mul_comm]

theorem ofDigitChars_paddedDigits (width n : Nat) :
    Nat.ofDigitChars 10 (paddedDigits width n) 0 = n := by
  rw [paddedDigits, Nat.ofDigitChars_append, Nat.ofDigitChars_replicate_zero, Nat.mul_zero,
    Nat.ofDigitChars_ten_toDigits]

theorem length_paddedDigits {width n : Nat} (positive : 0 < width) (small : n < 10 ^ width) :
    (paddedDigits width n).length = width := by
  have fits := (Nat.length_toDigits_le_iff (b := 10) (by decide) positive).2 small
  rw [paddedDigits, List.length_append, List.length_replicate]
  omega

theorem ne_point {c : Char} (digit : c.isDigit = true) : (c != '.') = true := by
  rw [bne_iff_ne]
  rintro rfl
  exact absurd digit (by decide)

theorem ofDigitChars_lt {t : Text} (digits : ∀ c ∈ t, c.isDigit = true) :
    Nat.ofDigitChars 10 t 0 < 10 ^ t.length := by
  induction t using List.reverseRecOn with
  | nil => exact Nat.one_pos
  | append_singleton t c ih =>
    have before := ih fun d member => digits d (List.mem_append_left _ member)
    have digit : c.toNat ≤ '9'.toNat := by
      have last := digits c (List.mem_append_right t List.mem_cons_self)
      simp only [Char.isDigit, Bool.and_eq_true, decide_eq_true_eq] at last
      exact last.2
    have last : Nat.ofDigitChars 10 [c] 0 ≤ 9 := by
      change 10 * 0 + (c.toNat - '0'.toNat) ≤ '9'.toNat - '0'.toNat
      omega
    rw [ofDigitChars_append, List.length_append, List.length_singleton, Nat.pow_one, Nat.pow_succ]
    omega

theorem ofText?_digits {a : Text} (digits : IsDigits a) :
    ofText? a = some ⟨Nat.ofDigitChars 10 a 0, 0⟩ := by
  have pointless : ∀ c ∈ a, (c != '.') = true := fun c member => ne_point (digits.2 c member)
  rw [ofText?, if_pos (Expression.any_isDigit digits), List.takeWhile_eq_self_iff.2 pointless,
    List.dropWhile_eq_nil_iff.2 pointless]
  dsimp only
  rw [List.drop_nil, List.append_nil, List.length_nil]

theorem ofText?_point {a b : Text} (before : ∀ c ∈ a, c.isDigit = true)
    (digit : (a ++ '.' :: b).any Char.isDigit = true) :
    ofText? (a ++ '.' :: b) = some ⟨Nat.ofDigitChars 10 (a ++ b) 0, b.length⟩ := by
  have pointless : ∀ c ∈ a, (c != '.') = true := fun c member => ne_point (before c member)
  have whole : (a ++ '.' :: b).takeWhile (· != '.') = a := by
    rw [List.takeWhile_append_of_pos pointless, List.takeWhile_cons_of_neg (by decide),
      List.append_nil]
  have fraction : (a ++ '.' :: b).dropWhile (· != '.') = '.' :: b := by
    rw [List.dropWhile_append_of_pos pointless, List.dropWhile_cons_of_neg (by decide)]
  rw [ofText?, if_pos digit, whole, fraction]
  rfl

theorem ofText?_toText (d : Decimal) : ofText? d.toText = some d := by
  obtain ⟨mantissa, places⟩ := d
  rw [toText]
  dsimp only
  by_cases whole : places = 0
  · rw [if_pos whole, ofText?_digits (isDigits_toDigits mantissa), Nat.ofDigitChars_ten_toDigits,
      whole]
  · have rest := Nat.mod_lt mantissa (Nat.pow_pos (n := places) (show 0 < 10 by decide))
    have length := length_paddedDigits (Nat.pos_of_ne_zero whole) rest
    have digit := Expression.any_isDigit (isDigits_toDigits (mantissa / 10 ^ places))
    rw [if_neg whole, ofText?_point (isDigits_toDigits _).2 (by rw [List.any_append, digit]; rfl),
      ofDigitChars_append, length,
      Nat.ofDigitChars_ten_toDigits, ofDigitChars_paddedDigits, Nat.div_add_mod']

theorem mantissa_lt {t : Text} (numeral : IsNumeral t) {d : Decimal} (read : ofText? t = some d) :
    d.mantissa < 10 ^ t.countP Char.isDigit := by
  obtain ⟨literal, digit⟩ := (isNumeral_iff t).1 numeral
  by_cases point : '.' ∈ t
  · obtain ⟨a, b, rfl⟩ := List.append_of_mem point
    obtain ⟨before, after⟩ := literal.around_point
    have digits : ∀ c ∈ a ++ b, c.isDigit = true := by
      intro c member
      exact (List.mem_append.1 member).elim (before c) (after c)
    have count : (a ++ '.' :: b).countP Char.isDigit = (a ++ b).length := by
      rw [← List.countP_eq_length.2 digits, List.countP_append, List.countP_append,
        List.countP_cons_of_neg (by decide)]
    rw [ofText?_point before digit] at read
    rw [count, ← Option.some.inj read]
    exact ofDigitChars_lt digits
  · have digits : IsDigits t := by
      refine ⟨?_, Expression.digits_of_numeric literal.numeric point⟩
      rintro rfl
      simp at digit
    rw [ofText?_digits digits] at read
    rw [List.countP_eq_length.2 digits.2, ← Option.some.inj read]
    exact ofDigitChars_lt digits.2

/-! ## Doubles -/

theorem toBinary64_eq {d : Decimal} {m : Nat} (read : d.units = m) (storable : Storable m) :
    d.toBinary64 = .finite false m storable :=
  Binary64.ofQuotient_eq false read storable

theorem units_reduce (mantissa places : Nat) :
    (reduce mantissa places).units = units ⟨mantissa, places⟩ := by
  have value := reduce_value mantissa places
  have positive (n : Nat) : 0 < 10 ^ n := Nat.pow_pos (by decide)
  apply Binary64.roundQuotient_congr (positive _) (positive _)
  rw [Nat.mul_right_comm, value, Nat.mul_right_comm]

theorem readsBack_exactMantissa {units : Nat} (storable : Storable units) :
    ReadsBack units (exactMantissa units) := by
  have exact_value : exactMantissa units * unitsPerOne = 10 ^ exactPlaces * units := by
    have ten : (10 : Nat) ^ exactPlaces = 5 ^ exactPlaces * 2 ^ exactPlaces := by
      rw [← Nat.mul_pow]
    have places : exactPlaces = Binary64.unitBits := rfl
    rw [ten, exactMantissa, unitsPerOne, ← places, Nat.mul_assoc, Nat.mul_comm units]
  change roundQuotient (exactMantissa units * unitsPerOne) (10 ^ exactPlaces) = units
  rw [exact_value]
  exact Binary64.roundQuotient_of_storable (Nat.pow_pos (by decide)) storable

theorem readsBack_shortestMantissa (tie : Tie) {units : Nat} (storable : Storable units) :
    ReadsBack units (shortestMantissa tie units) := by
  unfold shortestMantissa
  dsimp only
  generalize (Nat.toDigits 10 (exactMantissa units)).length = length
  cases found : (List.range 17).findSome?
      fun i => neighbour? tie units (10 ^ (length - (i + 1))) with
  | none => exact readsBack_exactMantissa storable
  | some m =>
    obtain ⟨i, -, neighbour⟩ := List.exists_of_findSome?_eq_some found
    exact readsBack_of_neighbour? neighbour

/-- The shortest decimal of a double is read as the double. -/
theorem toBinary64_shortest (tie : Tie) {units : Nat} (storable : Storable units) :
    (shortest tie units).toBinary64 = .finite false units storable := by
  apply toBinary64_eq
  rw [shortest, units_reduce]
  exact readsBack_shortestMantissa tie storable

end DeskCalculator.Decimal
