import DeskCalculator.Text.Basic
import Mathlib.Data.List.Basic
/-!
Parts of a text by byte offsets into its UTF-8 form. A cut goes between two characters or not at
all, so a part can be taken out, or another one put in its place, exactly where both offsets are
positions of the text.
-/
namespace DeskCalculator.Text

/-- The text before and after so many bytes; no cut goes through a character or lies past the
end. -/
def cut? : Nat → Text → Option (Text × Text)
  | 0, t => some ([], t)
  | _ + 1, [] => none
  | n + 1, c :: t =>
    if c.utf8Size ≤ n + 1 then
      (cut? (n + 1 - c.utf8Size) t).map fun parts => (c :: parts.1, parts.2)
    else none

def divide? (t : Text) (start stop : Nat) : Option (Text × Text × Text) :=
  if start ≤ stop then
    (cut? start t).bind fun outer =>
      (cut? (stop - start) outer.2).map fun inner => (outer.1, inner.1, inner.2)
  else none

def slice? (t : Text) (start stop : Nat) : Option Text :=
  (divide? t start stop).map fun parts => parts.2.1

def splice? (t : Text) (start stop : Nat) (part : Text) : Option Text :=
  (divide? t start stop).map fun parts => parts.1 ++ part ++ parts.2.2

theorem byteSize_eq_zero {t : Text} : byteSize t = 0 ↔ t = [] := by
  cases t with
  | nil => exact iff_of_true rfl rfl
  | cons c t =>
    have positive := c.utf8Size_pos
    refine iff_of_false ?_ (List.cons_ne_nil c t)
    rw [byteSize_cons]
    omega

theorem append_inj_of_byteSize {p q s t : Text} (same : p ++ s = q ++ t)
    (size : byteSize p = byteSize q) : p = q ∧ s = t := by
  rcases List.append_eq_append_iff.1 same with ⟨m, rfl, rfl⟩ | ⟨m, rfl, rfl⟩
  · rw [byteSize_append, Nat.left_eq_add, byteSize_eq_zero] at size
    rw [size, List.append_nil, List.nil_append]
    exact ⟨rfl, rfl⟩
  · rw [byteSize_append, Nat.add_eq_left, byteSize_eq_zero] at size
    rw [size, List.append_nil, List.nil_append]
    exact ⟨rfl, rfl⟩

theorem cut?_byteSize (p s : Text) : cut? (byteSize p) (p ++ s) = some (p, s) := by
  induction p with
  | nil =>
    rw [byteSize_nil, cut?]
    rfl
  | cons c p ih =>
    obtain ⟨n, size⟩ := Nat.exists_eq_add_of_lt c.utf8Size_pos
    have next : byteSize (c :: p) = n + byteSize p + 1 := by
      rw [byteSize_cons]
      omega
    have rest : n + byteSize p + 1 - c.utf8Size = byteSize p := by omega
    rw [next, List.cons_append, cut?, if_pos (by omega), rest, ih]
    rfl

theorem cut?_eq_some_iff {n : Nat} {t p s : Text} :
    cut? n t = some (p, s) ↔ t = p ++ s ∧ byteSize p = n := by
  constructor
  · intro cut
    induction t generalizing n p with
    | nil =>
      cases n with
      | zero =>
        cases cut
        exact ⟨rfl, rfl⟩
      | succ n => cases cut
    | cons c t ih =>
      cases n with
      | zero =>
        cases cut
        exact ⟨rfl, rfl⟩
      | succ n =>
        rw [cut?, Option.ite_none_right_eq_some] at cut
        obtain ⟨fits, cut⟩ := cut
        obtain ⟨⟨front, back⟩, inner, same⟩ := Option.map_eq_some_iff.1 cut
        cases same
        obtain ⟨rfl, size⟩ := ih inner
        refine ⟨rfl, ?_⟩
        rw [byteSize_cons, size]
        omega
  · rintro ⟨rfl, rfl⟩
    exact cut?_byteSize p s

structure Divides (t : Text) (start stop : Nat) (front part back : Text) : Prop where
  text : t = front ++ (part ++ back)
  starts : byteSize front = start
  stops : byteSize front + byteSize part = stop

theorem divide?_eq_some_iff {t front part back : Text} {start stop : Nat} :
    divide? t start stop = some (front, part, back) ↔ Divides t start stop front part back := by
  unfold divide?
  rw [Option.ite_none_right_eq_some]
  constructor
  · rintro ⟨order, divided⟩
    obtain ⟨⟨f, rest⟩, outer, divided⟩ := Option.bind_eq_some_iff.1 divided
    obtain ⟨⟨m, b⟩, inner, same⟩ := Option.map_eq_some_iff.1 divided
    cases same
    obtain ⟨rfl, size⟩ := cut?_eq_some_iff.1 outer
    obtain ⟨rfl, length⟩ := cut?_eq_some_iff.1 inner
    refine ⟨rfl, size, ?_⟩
    rw [size, length, Nat.add_sub_cancel' order]
  · rintro ⟨rfl, rfl, rfl⟩
    refine ⟨Nat.le_add_right _ _, ?_⟩
    rw [cut?_byteSize, Option.bind_some, Nat.add_sub_cancel_left, cut?_byteSize]
    rfl

theorem slice?_eq_some_iff {t part : Text} {start stop : Nat} :
    slice? t start stop = some part ↔ ∃ front back, Divides t start stop front part back := by
  unfold slice?
  rw [Option.map_eq_some_iff]
  constructor
  · rintro ⟨⟨front, _, back⟩, divided, rfl⟩
    exact ⟨front, back, divide?_eq_some_iff.1 divided⟩
  · rintro ⟨front, back, divides⟩
    exact ⟨(front, part, back), divide?_eq_some_iff.2 divides, rfl⟩

theorem utf8ByteSize_ofList (t : Text) : (String.ofList t).utf8ByteSize = byteSize t := by
  induction t with
  | nil => rfl
  | cons c t ih =>
    have split : String.ofList (c :: t) = String.singleton c ++ String.ofList t := by
      rw [String.singleton_eq_ofList, ← String.ofList_append]
      rfl
    rw [split, String.utf8ByteSize_append, String.utf8ByteSize_singleton, ih, byteSize_cons]

theorem isValid_byteSize (p s : Text) :
    (⟨byteSize p⟩ : String.Pos.Raw).IsValid (String.ofList (p ++ s)) := by
  rw [String.Pos.Raw.isValid_iff_exists_append]
  refine ⟨String.ofList p, String.ofList s, String.ofList_append, ?_⟩
  rw [String.rawEndPos, utf8ByteSize_ofList]

namespace Divides

variable {t front part back : Text} {start stop : Nat}

theorem slice? (divides : Divides t start stop front part back) :
    Text.slice? t start stop = some part :=
  slice?_eq_some_iff.2 ⟨front, back, divides⟩

theorem splice? (divides : Divides t start stop front part back) (other : Text) :
    Text.splice? t start stop other = some (front ++ other ++ back) := by
  rw [Text.splice?, divide?_eq_some_iff.2 divides]
  rfl

theorem stop_le (divides : Divides t start stop front part back) : stop ≤ byteSize t := by
  rw [divides.text, byteSize_append, byteSize_append, ← divides.stops, ← Nat.add_assoc]
  exact Nat.le_add_right _ _

theorem isValid (divides : Divides t start stop front part back) :
    (⟨start⟩ : String.Pos.Raw).IsValid (String.ofList t) ∧
      (⟨stop⟩ : String.Pos.Raw).IsValid (String.ofList t) := by
  constructor
  · rw [← divides.starts, divides.text]
    exact isValid_byteSize front (part ++ back)
  · rw [← divides.stops, ← byteSize_append, divides.text, ← List.append_assoc]
    exact isValid_byteSize (front ++ part) back

end Divides

end DeskCalculator.Text
