import DeskCalculator.Proofs.Expression.Completion
/-!
Texts that a sentence starts with, and the places that the errors of the reader name. Up to the
place of an error the text can go on to a sentence, and over the character there it cannot; where
the text ends too early it can go on as it is; and the only number that cannot be read is a point
alone.
-/
namespace DeskCalculator.Expression

open Expression.Tree (readFrom advance)

/-! ## Texts that can go on -/

def IsViable (t : Text) : Prop := ∃ s e, Derives .sum (t ++ s) e ∧ e.depth ≤ 256

def MayStartNumber (t : Text) : Prop := t.endsWith isNumeric = false ∧ IsViable (t ++ ['0'])

theorem Reading.depth_readFrom {r : Reading Tree} {t : Text} {e : Tree}
    (read : readFrom r t = some e) (unopened : '(' ∉ t) : e.depth = r.depth := by
  induction t generalizing r with
  | nil => exact Reading.depth_finish read
  | cons c t ih =>
    rw [Tree.readFrom_cons] at read
    obtain ⟨next, moved, read⟩ := Option.bind_eq_some_iff.1 read
    have other : [c].count '(' = 0 := by
      apply List.count_eq_zero_of_not_mem
      intro member
      exact unopened (List.mem_cons.2 (.inl (List.mem_singleton.1 member)))
    have groups := groups_step moved
    have grown := Reading.depth_step moved
    have bound := r.length_le_depth
    rw [ih read (fun member => unopened (List.mem_cons_of_mem c member))]
    omega

theorem exists_readFrom_of_hasDigit {r : Reading Tree} (digit : r.HasDigit) :
    ∃ s e, '(' ∉ s ∧ readFrom r s = some e := by
  -- A number comes where one is due, and then a parenthesis for each open group.
  obtain ⟨enclosing, phase⟩ := r
  have unopened : '(' ∉ List.replicate enclosing.length ')' := by simp [List.mem_replicate]
  have stops := stops_closing enclosing.length
  cases phase with
  | operator terms =>
    obtain ⟨e, read⟩ := exists_readFrom_closing enclosing terms
    exact ⟨_, e, unopened, read⟩
  | number pending literal =>
    obtain ⟨e, read⟩ := exists_readFrom_closing enclosing (Tree.supply pending (.number literal))
    exact ⟨_, e, unopened, by rw [readFrom_number digit stops, read]⟩
  | operand pending =>
    obtain ⟨e, read⟩ := exists_readFrom_closing enclosing (Tree.supply pending (.number ['0']))
    have moved : Tree.step ⟨enclosing, .operand pending⟩ '0' =
        some ⟨enclosing, .number pending ['0']⟩ := rfl
    refine ⟨'0' :: List.replicate enclosing.length ')', e, ?_, ?_⟩
    · simp [List.mem_replicate]
    · rw [Tree.readFrom_step moved, readFrom_number (by decide) stops, read]

theorem isViable_of_advance {t : Text} {r : Reading Tree} (led : advance .start t = some r)
    (shallow : r.depth ≤ maxDepth) (digit : r.HasDigit) : IsViable t := by
  obtain ⟨s, e, unopened, read⟩ := exists_readFrom_of_hasDigit digit
  refine ⟨s, e, (derives_iff_ofText? _ e).2 ?_, ?_⟩
  · rw [Tree.ofText?, Tree.readFrom_append, led, Option.bind_some, read]
  · rw [Reading.depth_readFrom read unopened]
    exact shallow

/-! ## Numbers without a digit -/

theorem eq_point_of_bare {literal : Text} (read : IsLiteral literal) (nonempty : literal ≠ [])
    (bare : ¬literal.any Char.isDigit = true) : literal = ['.'] := by
  have points : ∀ c ∈ literal, c = '.' := by
    intro c member
    rcases (isNumeric_iff c).1 (read.numeric c member) with digit | point
    · exact absurd (List.any_eq_true.2 ⟨c, member, digit⟩) bare
    · exact point
  have one := read.onePoint
  rw [List.count_eq_length.2 (fun c member => (points c member).symm)] at one
  obtain ⟨c, rfl⟩ := List.length_eq_one_iff.1
    (Nat.le_antisymm one (List.length_pos_iff.2 nonempty))
  rw [points c List.mem_cons_self]

theorem exists_point {t literal : Text} {enclosing : List (Pending Tree)} {pending : Pending Tree}
    (led : advance .start t = some ⟨enclosing, .number pending literal⟩)
    (shallow : Reading.depth ⟨enclosing, .number pending literal⟩ ≤ maxDepth)
    (bare : ¬literal.any Char.isDigit = true) :
    literal = ['.'] ∧ ∃ p, t = p ++ ['.'] ∧ MayStartNumber p := by
  obtain ⟨p, rfl, nonempty, read, begun⟩ := exists_number_start led
  obtain rfl := eq_point_of_bare read nonempty bare
  refine ⟨rfl, p, rfl, endsWith_of_operand begun, ?_⟩
  have started : advance .start (p ++ ['0']) = some ⟨enclosing, .number pending ['0']⟩ := by
    rw [Tree.advance_append_singleton, begun]
    rfl
  exact isViable_of_advance started shallow rfl

/-! ## The places of errors -/

/-- The text can go on as it does up to the byte at the offset, which is that of a character and no
blank, and not over it. -/
structure StopsAt (t : Text) (offset : Nat) (before : Text) (found : Char) : Prop where
  inside : offset < Text.byteSize t
  split : ∃ after, t = before ++ found :: after
  size : Text.byteSize before = offset
  notBlank : found ≠ ' '
  viable : IsViable before
  stuck : ∀ after, ¬IsSentence (before ++ found :: after)

theorem byteSize_eq_length {t : Text} (single : ∀ c ∈ t, c.utf8Size = 1) :
    Text.byteSize t = t.length := by
  induction t with
  | nil => rfl
  | cons c t ih =>
    rw [Text.byteSize_cons, single c List.mem_cons_self,
      ih (fun d member => single d (List.mem_cons_of_mem c member)), List.length_cons,
      Nat.add_comm]

variable {α : Type} {arith : Arithmetic α}

theorem Stands.stopsAt {p s : Text} {c : Char} {r : Reading Tree} {values : Reading α}
    (stands : Stands arith p r values) (digit : r.HasDigit) (stuck : Tree.step r c = none)
    (single : ∀ d ∈ p ++ c :: s, d.utf8Size = 1) : StopsAt (p ++ c :: s) p.length p c where
  inside := by
    rw [byteSize_eq_length single, List.length_append, List.length_cons]
    omega
  split := ⟨s, rfl⟩
  size := byteSize_eq_length fun d member => single d (List.mem_append_left _ member)
  notBlank := ne_blank_of_stuck digit stuck
  viable := isViable_of_advance stands.led stands.shallow digit
  stuck := not_isSentence_of_stuck stands.led stuck

theorem GivesUp.unexpectedChar {t : Text} {found : Char} {offset : Nat}
    (givesUp : GivesUp arith t (.unexpectedChar found offset))
    (single : ∀ c ∈ t, c.utf8Size = 1) : ∃ p, StopsAt t offset p found ∧ ¬IsSentence p := by
  cases givesUp with
  | «at» split stands refused =>
    subst split
    cases refused with
    | unexpectedChar digit stuck unfinished =>
      exact ⟨_, stands.stopsAt digit stuck single, not_isSentence_of_finish stands.led unfinished⟩
  | «end» stands refused => cases refused

theorem GivesUp.trailingInput {t : Text} {offset : Nat}
    (givesUp : GivesUp arith t (.trailingInput offset)) (single : ∀ c ∈ t, c.utf8Size = 1) :
    ∃ p found, StopsAt t offset p found ∧ IsSentence p := by
  cases givesUp with
  | «at» split stands refused =>
    subst split
    cases refused with
    | trailingInput digit stuck finished =>
      have sentence := (isSentence_iff_finish stands.led).2 ⟨_, finished⟩
      exact ⟨_, _, stands.stopsAt digit stuck single, sentence⟩
  | «end» stands refused => cases refused

theorem GivesUp.unexpectedEnd {t : Text} (givesUp : GivesUp arith t .unexpectedEnd) :
    IsViable t ∧ ¬IsSentence t := by
  cases givesUp with
  | «at» split stands refused => cases refused
  | «end» stands refused =>
    cases refused with
    | unexpectedEnd digit unfinished =>
      exact ⟨isViable_of_advance stands.led stands.shallow digit,
        not_isSentence_of_finish stands.led unfinished⟩

theorem GivesUp.malformedNumber {t literal : Text}
    (givesUp : GivesUp arith t (.malformedNumber literal)) :
    literal = ['.'] ∧ ∃ p s, t = p ++ '.' :: s ∧ MayStartNumber p ∧
      ∀ c r, s = c :: r → c.isDigit = false := by
  cases givesUp with
  | «at» split stands refused =>
    subst split
    cases refused with
    | malformedNumber reading bare ends =>
      subst reading
      obtain ⟨rfl, p, rfl, start⟩ := exists_point stands.led stands.shallow bare
      refine ⟨rfl, p, _, List.append_assoc p _ _, start, ?_⟩
      rintro d r ⟨⟩
      simpa [continues] using ends
  | «end» stands refused =>
    cases refused with
    | malformedNumber reading bare =>
      subst reading
      obtain ⟨rfl, p, rfl, start⟩ := exists_point stands.led stands.shallow bare
      refine ⟨rfl, p, [], rfl, start, ?_⟩
      rintro d r ⟨⟩

variable (arith)

/-- The errors of a text of single bytes are exact: an unexpected character and trailing input stand
at the first byte over which no sentence goes on, which is no blank; a text that ends unexpectedly
is none yet but the start of a sentence; and a number that cannot be read is a point, where a number
may start, without a digit after it. -/
theorem errors_of_value {t : Text} (single : ∀ c ∈ t, c.utf8Size = 1) :
    (∀ found offset, value arith t = .error (.unexpectedChar found offset) →
      ∃ p, StopsAt t offset p found ∧ ¬IsSentence p) ∧
    (∀ offset, value arith t = .error (.trailingInput offset) →
      ∃ p found, StopsAt t offset p found ∧ IsSentence p) ∧
    (value arith t = .error .unexpectedEnd → IsViable t ∧ ¬IsSentence t) ∧
    ∀ literal, value arith t = .error (.malformedNumber literal) →
      literal = ['.'] ∧ ∃ p s, t = p ++ '.' :: s ∧ MayStartNumber p ∧
        ∀ c r, s = c :: r → c.isDigit = false := by
  refine ⟨?_, ?_, ?_, ?_⟩
  · intro found offset failed
    exact (givesUp_of_value failed).unexpectedChar single
  · intro offset failed
    exact (givesUp_of_value failed).trailingInput single
  · intro failed
    exact (givesUp_of_value failed).unexpectedEnd
  · intro literal failed
    exact (givesUp_of_value failed).malformedNumber

theorem errors_of_value_group :
    value Binary64.arithmetic "2*(3+ )".toList = .error (.unexpectedChar ')' 6) ∧
      ∃ p, StopsAt "2*(3+ )".toList 6 p ')' ∧ ¬IsSentence p := by
  have failed : value Binary64.arithmetic "2*(3+ )".toList = .error (.unexpectedChar ')' 6) := rfl
  have single : ∀ c ∈ "2*(3+ )".toList, c.utf8Size = 1 := by simp [Char.utf8Size]
  exact ⟨failed, (errors_of_value Binary64.arithmetic single).1 ')' 6 failed⟩

end DeskCalculator.Expression
