/-!
Text as a list of code points: its size in UTF-8, padding to a width, the test of its last
character, and white space as Unicode has it.
-/
namespace DeskCalculator

/-- Text is a list of code points, so that scans and edits at its end are recursions on data. -/
abbrev Text := List Char

namespace Text

def byteSize : Text → Nat
  | [] => 0
  | c :: t => c.utf8Size + byteSize t

def padLeft (width : Nat) (t : Text) : Text := List.replicate (width - t.length) ' ' ++ t

def endsWith (p : Char → Bool) (t : Text) : Bool := t.getLast?.any p

/-- The characters with the property White_Space. -/
def isBlank (c : Char) : Bool :=
  (0x9 ≤ c.toNat && c.toNat ≤ 0xd) || (0x2000 ≤ c.toNat && c.toNat ≤ 0x200a) ||
    [0x20, 0x85, 0xa0, 0x1680, 0x2028, 0x2029, 0x202f, 0x205f, 0x3000].contains c.toNat

def trim (t : Text) : Text := ((t.dropWhile isBlank).reverse.dropWhile isBlank).reverse

@[simp] theorem byteSize_nil : byteSize [] = 0 := rfl

@[simp] theorem byteSize_cons (c : Char) (t : Text) : byteSize (c :: t) = c.utf8Size + byteSize t :=
  rfl

@[simp] theorem byteSize_append (s t : Text) : byteSize (s ++ t) = byteSize s + byteSize t := by
  induction s with
  | nil => exact (Nat.zero_add _).symm
  | cons c s ih => rw [List.cons_append, byteSize_cons, byteSize_cons, ih, Nat.add_assoc]

theorem length_padLeft (width : Nat) (t : Text) :
    (padLeft width t).length = max width t.length := by
  simp only [padLeft, List.length_append, List.length_replicate]
  omega

@[simp] theorem endsWith_nil (p : Char → Bool) : endsWith p [] = false := rfl

@[simp] theorem endsWith_append_singleton (p : Char → Bool) (t : Text) (c : Char) :
    endsWith p (t ++ [c]) = p c := by
  simp [endsWith]

theorem endsWith_append (p : Char → Bool) (s : Text) {t : Text} (nonempty : t ≠ []) :
    endsWith p (s ++ t) = endsWith p t := by
  rw [endsWith, endsWith, List.getLast?_append, List.getLast?_eq_some_getLast nonempty,
    Option.some_or]

theorem exists_of_endsWith {p : Char → Bool} {t : Text} (ends : endsWith p t = true) :
    ∃ s c, t = s ++ [c] ∧ p c = true := by
  rcases List.eq_nil_or_concat t with rfl | ⟨s, c, rfl⟩
  · cases ends
  · rw [List.concat_eq_append] at ends ⊢
    rw [endsWith_append_singleton] at ends
    exact ⟨s, c, rfl, ends⟩

theorem endsWith_eq_false {p : Char → Bool} {t : Text} (others : ∀ c ∈ t, p c = false) :
    endsWith p t = false := by
  rw [Bool.eq_false_iff]
  intro ends
  obtain ⟨s, c, rfl, holds⟩ := exists_of_endsWith ends
  rw [others c (by simp)] at holds
  cases holds

end Text

end DeskCalculator
