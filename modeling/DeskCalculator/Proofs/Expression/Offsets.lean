import DeskCalculator.Proofs.Expression.LastNumber
import DeskCalculator.Proofs.Text.Slice
/-!
Where the last number of any text is, in bytes. It stops behind the last digit, its digits are the
longest part up to there that can be read as one number, and a sign before them belongs to it at a
place for signs. The offsets of the number that is found are these, and all of them are positions of
the text, so no cut and no exchange at them can fail.
-/
namespace DeskCalculator

namespace Expression

def IsSignedAt (t : Text) (offset : Nat) : Prop :=
  ∃ p c, Text.slice? t 0 offset = some (p ++ [c]) ∧ (c = '+' ∨ c = '-') ∧ IsSignPlace p

structure IsLastNumberAt (t : Text) (start digitsStart stop : Nat) : Prop where
  stops : ∃ front d after, t = front ++ d :: after ∧ d.isDigit = true ∧
    (∀ c ∈ after, c.isDigit = false) ∧ stop = Text.byteSize front + 1
  literal : ∃ digits, Text.slice? t digitsStart stop = some digits ∧ IsLiteral digits
  longest : ∀ i u, Text.slice? t i stop = some u → IsLiteral u → digitsStart ≤ i
  signed : IsSignedAt t digitsStart → start + 1 = digitsStart
  unsigned : ¬IsSignedAt t digitsStart → start = digitsStart

theorem utf8Size_of_isDigit {c : Char} (digit : c.isDigit = true) : c.utf8Size = 1 := by
  rw [Char.utf8Size_eq_one_iff, UInt32.le_iff_toNat_le]
  simp only [Char.isDigit, Bool.and_eq_true, decide_eq_true_eq, UInt32.le_iff_toNat_le] at digit
  exact Nat.le_trans digit.2 (by decide)

theorem append_inj_of_last_digit {p q s t : Text} {c d : Char} (same : p ++ c :: s = q ++ d :: t)
    (first : c.isDigit = true) (second : d.isDigit = true) (noneLater : ∀ e ∈ s, e.isDigit = false)
    (noneLater' : ∀ e ∈ t, e.isDigit = false) : p = q := by
  rcases List.append_eq_append_iff.1 same with ⟨m, rfl, rest⟩ | ⟨m, rfl, rest⟩
  · cases m with
    | nil => rw [List.append_nil]
    | cons e m =>
      obtain ⟨_, rfl⟩ := List.cons_eq_cons.1 rest
      have other := noneLater d (by simp)
      rw [second] at other
      cases other
  · cases m with
    | nil => rw [List.append_nil]
    | cons e m =>
      obtain ⟨_, rfl⟩ := List.cons_eq_cons.1 rest
      have other := noneLater' c (by simp)
      rw [first] at other
      cases other

theorem IsLastNumberAt.unique {t : Text} {start digitsStart stop start' digitsStart' stop' : Nat}
    (here : IsLastNumberAt t start digitsStart stop)
    (there : IsLastNumberAt t start' digitsStart' stop') :
    start = start' ∧ digitsStart = digitsStart' ∧ stop = stop' := by
  have stops : stop = stop' := by
    obtain ⟨front, d, after, split, digit, later, size⟩ := here.stops
    obtain ⟨front', d', after', split', digit', later', size'⟩ := there.stops
    rw [size, size',
      append_inj_of_last_digit (split.symm.trans split') digit digit' later later']
  subst stops
  have digits : digitsStart = digitsStart' := by
    obtain ⟨u, slice, literal⟩ := here.literal
    obtain ⟨u', slice', literal'⟩ := there.literal
    exact Nat.le_antisymm (here.longest _ _ slice' literal') (there.longest _ _ slice literal)
  subst digits
  refine ⟨?_, rfl, rfl⟩
  by_cases signed : IsSignedAt t digitsStart
  · exact Nat.add_right_cancel ((here.signed signed).trans (there.signed signed).symm)
  · rw [here.unsigned signed, there.unsigned signed]

end Expression

namespace LastNumber

open Expression

variable {n : LastNumber} {t : Text}

theorem digitsStart_eq (n : LastNumber) :
    n.digitsStart = Text.byteSize (n.before ++ n.sign.toList) := by
  rw [Text.byteSize_append]
  rfl

theorem IsLastOf.divides_sign (last : n.IsLastOf t) :
    Text.Divides t n.start n.digitsStart n.before n.sign.toList (n.digits ++ n.after) where
  text := by rw [← List.append_assoc, ← n.text_eq, last.text]
  starts := rfl
  stops := rfl

theorem IsLastOf.divides_digits (last : n.IsLastOf t) :
    Text.Divides t n.digitsStart n.stop (n.before ++ n.sign.toList) n.digits n.after where
  text := by rw [← n.text_eq, last.text]
  starts := n.digitsStart_eq.symm
  stops := by
    rw [← n.digitsStart_eq]
    rfl

theorem IsLastOf.divides_number (last : n.IsLastOf t) :
    Text.Divides t n.start n.stop n.before (n.sign.toList ++ n.digits) n.after where
  text := by rw [List.append_assoc, ← List.append_assoc, ← n.text_eq, last.text]
  starts := rfl
  stops := by
    rw [Text.byteSize_append, ← Nat.add_assoc]
    rfl

theorem IsLastOf.stops (last : n.IsLastOf t) :
    ∃ front d after, t = front ++ d :: after ∧ d.isDigit = true ∧
      (∀ c ∈ after, c.isDigit = false) ∧ n.stop = Text.byteSize front + 1 := by
  obtain ⟨s, d, ends, digit⟩ := Text.exists_of_endsWith last.ends
  have divides := last.divides_digits
  refine ⟨(n.before ++ n.sign.toList) ++ s, d, n.after, ?_, digit, last.after, ?_⟩
  · rw [divides.text, ends]
    simp
  · rw [← divides.stops, ends, Text.byteSize_append _ s, Text.byteSize_append s, Text.byteSize_cons,
      utf8Size_of_isDigit digit, Text.byteSize_nil]
    rfl

theorem IsLastOf.digitsStart_le (last : n.IsLastOf t) {i : Nat} {u : Text}
    (slice : Text.slice? t i n.stop = some u) (literal : IsLiteral u) : n.digitsStart ≤ i := by
  obtain ⟨front, back, other⟩ := Text.slice?_eq_some_iff.1 slice
  have divides := last.divides_digits
  have upTo : front ++ u = (n.before ++ n.sign.toList) ++ n.digits := by
    refine (Text.append_inj_of_byteSize (s := back) (t := n.after) ?_ ?_).1
    · rw [List.append_assoc, ← other.text, List.append_assoc _ n.digits, ← divides.text]
    · rw [Text.byteSize_append, Text.byteSize_append _ n.digits, other.stops, divides.stops]
  rw [n.digitsStart_eq, ← other.starts]
  rcases List.append_eq_append_iff.1 upTo with ⟨m, earlier, whole⟩ | ⟨m, later, _⟩
  · rcases List.eq_nil_or_concat m with rfl | ⟨q, c, rfl⟩
    · rw [earlier, List.append_nil]
    · -- One more character would be a digit, or a second point.
      rw [List.concat_eq_append] at earlier whole
      rw [← List.append_assoc] at earlier
      obtain ⟨other, second⟩ := last.longest (front ++ q) c earlier
      have numeric := literal.numeric c (by rw [whole]; simp)
      have point : c = '.' := ((isNumeric_iff c).1 numeric).resolve_left (by rw [other]; decide)
      have again := List.count_pos_iff.2 (second point)
      have count := literal.onePoint
      rw [whole, point, List.count_append, List.count_append, List.count_singleton_self] at count
      omega
  · rw [later, Text.byteSize_append _ m]
    exact Nat.le_add_right _ _

theorem IsLastOf.isSignedAt_iff (last : n.IsLastOf t) :
    IsSignedAt t n.digitsStart ↔ n.sign ≠ none := by
  have divides := last.divides_digits
  constructor
  · rintro ⟨p, c, slice, mark, place⟩ unmarked
    obtain ⟨_, _, other⟩ := Text.slice?_eq_some_iff.1 slice
    obtain rfl := Text.byteSize_eq_zero.1 other.starts
    have size : Text.byteSize (p ++ [c]) = Text.byteSize (n.before ++ n.sign.toList) := by
      rw [divides.starts, ← other.stops, Text.byteSize_nil, Nat.zero_add]
    have split := other.text
    rw [List.nil_append, divides.text] at split
    have same := (Text.append_inj_of_byteSize split.symm size).1
    rw [unmarked, Option.toList_none, List.append_nil] at same
    exact last.unsigned unmarked p c same.symm mark place
  · intro marked
    obtain ⟨c, sign⟩ := Option.ne_none_iff_exists'.1 marked
    have front : Text.Divides t 0 n.digitsStart [] (n.before ++ [c]) (n.digits ++ n.after) := by
      rw [← Option.toList_some, ← sign]
      exact ⟨divides.text, rfl, (Nat.zero_add _).trans divides.starts⟩
    exact ⟨n.before, c, front.slice?, last.signed c sign⟩

theorem IsLastOf.isLastNumberAt (last : n.IsLastOf t) :
    IsLastNumberAt t n.start n.digitsStart n.stop where
  stops := last.stops
  literal := ⟨n.digits, last.divides_digits.slice?, last.literal⟩
  longest := fun _ _ slice literal => last.digitsStart_le slice literal
  signed := by
    intro signed
    obtain ⟨c, sign⟩ := Option.ne_none_iff_exists'.1 (last.isSignedAt_iff.1 signed)
    rw [digitsStart, sign, Option.toList_some, Text.byteSize_cons, Text.byteSize_nil]
    obtain ⟨rfl | rfl, _⟩ := last.signed c sign <;> rfl
  unsigned := by
    intro unsigned
    rw [last.isSignedAt_iff, not_not] at unsigned
    rw [digitsStart, unsigned]
    rfl

/-- The last number of a text is found exactly if the text has a digit, and at the offsets that the
text alone tells: it stops behind the last digit, its digits are the longest part up to there of
digits and at most one point, and a sign before them counts where it starts the text or follows an
operator or an opening parenthesis. The offsets are positions of the text; the parts between them
are the sign and the digits, and the number or its digits can always be exchanged for another
text. -/
theorem find?_isLastNumberAt (t : Text) :
    (find? t = none ↔ ∀ c ∈ t, c.isDigit = false) ∧
      (∀ start digitsStart stop, IsLastNumberAt t start digitsStart stop ↔
        ∃ n, find? t = some n ∧ n.start = start ∧ n.digitsStart = digitsStart ∧ n.stop = stop) ∧
      ∀ n, find? t = some n →
        (n.start ≤ n.digitsStart ∧ n.digitsStart < n.stop ∧ n.stop ≤ Text.byteSize t) ∧
        (∀ i ∈ [n.start, n.digitsStart, n.stop],
          (⟨i⟩ : String.Pos.Raw).IsValid (String.ofList t)) ∧
        Text.slice? t n.start n.digitsStart = some n.sign.toList ∧
        Text.slice? t n.digitsStart n.stop = some n.digits ∧
        Text.splice? t n.start n.stop (if n.sign = some '-' then n.digits else '-' :: n.digits) =
          some n.negated ∧
        ∀ digits, Text.splice? t n.digitsStart n.stop digits = some (n.withDigits digits) := by
  refine ⟨find?_eq_none_iff, ?_, ?_⟩
  · intro start digitsStart stop
    constructor
    · intro located
      have hasDigit : find? t ≠ none := by
        obtain ⟨front, d, after, split, digit, _⟩ := located.stops
        intro missing
        have other := find?_eq_none_iff.1 missing d (by rw [split]; simp)
        rw [digit] at other
        cases other
      obtain ⟨n, found⟩ := Option.ne_none_iff_exists'.1 hasDigit
      exact ⟨n, found, (isLastOf_of_find? found).isLastNumberAt.unique located⟩
    · rintro ⟨n, found, rfl, rfl, rfl⟩
      exact (isLastOf_of_find? found).isLastNumberAt
  · intro n found
    have last := isLastOf_of_find? found
    have digits := last.divides_digits
    have number := last.divides_number
    refine ⟨⟨Nat.le_add_right _ _, ?_, number.stop_le⟩, ?_, last.divides_sign.slice?,
      digits.slice?, number.splice? _, fun others => ?_⟩
    · obtain ⟨d, others, starts, _⟩ := last.starts
      have positive := d.utf8Size_pos
      rw [stop, starts, Text.byteSize_cons]
      omega
    · exact List.forall_mem_cons.2 ⟨number.isValid.1,
        List.forall_mem_cons.2 ⟨digits.isValid.1, List.forall_mem_singleton.2 digits.isValid.2⟩⟩
    · rw [digits.splice?]
      rfl

theorem find?_isLastNumberAt_root :
    let t := "√2*-6.5π".toList
    let n : LastNumber := ⟨"√2*".toList, some '-', "6.5".toList, ['π']⟩
    find? t = some n ∧ IsLastNumberAt t 5 6 9 ∧
      Text.slice? t 6 9 = some "6.5".toList ∧
      Text.splice? t 5 9 "6.5".toList = some "√2*6.5π".toList := by
  intro t n
  have found : find? t = some n := by decide
  obtain ⟨_, places, parts⟩ := find?_isLastNumberAt t
  obtain ⟨_, _, _, digits, negated, _⟩ := parts n found
  exact ⟨found, (places 5 6 9).2 ⟨n, found, by decide, by decide, by decide⟩, digits, negated⟩

end LastNumber

end DeskCalculator
