import DeskCalculator.Proofs.Expression.Numeral
import Mathlib.Data.List.TakeWhile
/-!
What the last number of a text is: a literal that ends with the last digit and cannot be longer,
with the sign in front of it that belongs to no operation.
-/
namespace DeskCalculator

namespace Expression

def IsSignPlace (t : Text) : Prop :=
  t = [] ∨ Text.endsWith (fun c => isOperator c || c == '(') t = true

theorem isSignPlace_append_singleton (t : Text) (c : Char) :
    IsSignPlace (t ++ [c]) ↔ isOperator c = true ∨ c = '(' := by
  simp [IsSignPlace]

theorem isUnaryContext_reverse (t : Text) : isUnaryContext t.reverse = true ↔ IsSignPlace t := by
  rcases List.eq_nil_or_concat t with rfl | ⟨p, c, rfl⟩
  · simp [isUnaryContext, IsSignPlace]
  · rw [List.concat_eq_append, isSignPlace_append_singleton, List.reverse_append]
    simp [isUnaryContext]

theorem eq_cons_of_reverse {t p : Text} {c : Char} (split : t.reverse = p ++ [c]) :
    t = c :: p.reverse := by
  rw [← List.reverse_reverse t, split, List.reverse_append]
  rfl

theorem eq_append_of_reverse {t p : Text} {c : Char} (split : t.reverse = c :: p) :
    t = p.reverse ++ [c] := by
  rw [← List.reverse_reverse t, split, List.reverse_cons]

theorem count_splitDigits (pointed : Bool) (t : Text) :
    (splitDigits pointed t).1.count '.' ≤ if pointed then 0 else 1 := by
  induction t generalizing pointed with
  | nil => exact Nat.zero_le _
  | cons c rest ih =>
    unfold splitDigits
    by_cases digit : c.isDigit = true
    · have other : c ≠ '.' := by
        rintro rfl
        exact absurd digit (by decide)
      rw [if_pos digit, List.count_cons_of_ne other]
      exact ih pointed
    · rw [if_neg digit]
      by_cases point : c = '.' ∧ pointed = false
      · obtain ⟨rfl, rfl⟩ := point
        have later := ih true
        rw [if_pos ⟨rfl, rfl⟩, List.count_cons_self]
        rw [if_pos rfl] at later
        rw [if_neg (by decide)]
        omega
      · rw [if_neg point]
        exact Nat.zero_le _

theorem numeric_splitDigits (pointed : Bool) (t : Text) :
    ∀ c ∈ (splitDigits pointed t).1, isNumeric c = true := by
  induction t generalizing pointed with
  | nil =>
    intro c member
    cases member
  | cons d rest ih =>
    unfold splitDigits
    by_cases digit : d.isDigit = true
    · rw [if_pos digit]
      intro c member
      rcases List.mem_cons.1 member with rfl | later
      · exact isNumeric_of_isDigit digit
      · exact ih pointed c later
    · rw [if_neg digit]
      by_cases point : d = '.' ∧ pointed = false
      · rw [if_pos point]
        intro c member
        rcases List.mem_cons.1 member with rfl | later
        · exact (isNumeric_iff c).2 (.inr point.1)
        · exact ih true c later
      · rw [if_neg point]
        intro c member
        cases member

theorem splitDigits_stops {pointed : Bool} {t rest : Text} {c : Char}
    (stop : (splitDigits pointed t).2 = c :: rest) :
    c.isDigit = false ∧ (c = '.' → pointed = true ∨ '.' ∈ (splitDigits pointed t).1) := by
  induction t generalizing pointed with
  | nil => cases stop
  | cons d others ih =>
    unfold splitDigits at stop ⊢
    by_cases digit : d.isDigit = true
    · rw [if_pos digit] at stop ⊢
      obtain ⟨other, second⟩ := ih stop
      refine ⟨other, fun point => ?_⟩
      exact (second point).imp_right (List.mem_cons_of_mem d)
    · rw [if_neg digit] at stop ⊢
      by_cases point : d = '.' ∧ pointed = false
      · rw [if_pos point] at stop ⊢
        obtain ⟨other, _⟩ := ih stop
        refine ⟨other, fun _ => .inr ?_⟩
        rw [point.1]
        exact List.mem_cons_self
      · rw [if_neg point] at stop ⊢
        cases stop
        refine ⟨by simpa using digit, fun isPoint => .inl ?_⟩
        simpa [isPoint] using point

theorem splitDigits_append_of_stops {pointed : Bool} {digits rest : Text}
    (numeric : ∀ c ∈ digits, isNumeric c = true)
    (onePoint : digits.count '.' ≤ if pointed then 0 else 1)
    (stops : ∀ c others, rest = c :: others →
      c.isDigit = false ∧ (c = '.' → pointed = true ∨ '.' ∈ digits)) :
    splitDigits pointed (digits ++ rest) = (digits, rest) := by
  induction digits generalizing pointed with
  | nil =>
    cases rest with
    | nil => rfl
    | cons c others =>
      obtain ⟨other, second⟩ := stops c others rfl
      have ends : ¬(c = '.' ∧ pointed = false) := by
        rintro ⟨point, first⟩
        rcases second point with again | member
        · rw [first] at again
          cases again
        · cases member
      rw [List.nil_append, splitDigits, if_neg (by rw [other]; decide), if_neg ends]
  | cons d digits ih =>
    have inside : ∀ c ∈ digits, isNumeric c = true := fun c member =>
      numeric c (List.mem_cons_of_mem d member)
    rw [List.cons_append, splitDigits]
    by_cases digit : d.isDigit = true
    · have other : d ≠ '.' := by
        rintro rfl
        exact absurd digit (by decide)
      rw [List.count_cons_of_ne other] at onePoint
      rw [if_pos digit, ih inside onePoint]
      intro c others split
      obtain ⟨notDigit, second⟩ := stops c others split
      exact ⟨notDigit, fun point => (second point).imp_right fun member =>
        (List.mem_cons.1 member).resolve_left fun same => other same.symm⟩
    · have either := (isNumeric_iff d).1 (numeric d List.mem_cons_self)
      have point : d = '.' := either.resolve_left digit
      subst point
      rw [List.count_cons_self] at onePoint
      have first : pointed = false := by
        cases pointed with
        | false => rfl
        | true => exact absurd onePoint (by simp)
      subst first
      have later : digits.count '.' ≤ if true = true then 0 else 1 := by simpa using onePoint
      rw [if_neg digit, if_pos ⟨rfl, rfl⟩, ih inside later]
      intro c others split
      exact ⟨(stops c others split).1, fun _ => .inl rfl⟩

theorem splitSign_spec (t : Text) :
    (∀ c, (splitSign t).1 = some c → (c = '+' ∨ c = '-') ∧ isUnaryContext (splitSign t).2 = true) ∧
      ((splitSign t).1 = none → ∀ c rest, (splitSign t).2 = c :: rest → c = '+' ∨ c = '-' →
        isUnaryContext rest = false) := by
  cases t with
  | nil => simp [splitSign]
  | cons c rest =>
    rw [splitSign]
    by_cases sign : (c = '+' ∨ c = '-') ∧ isUnaryContext rest = true
    · rw [if_pos sign]
      constructor
      · rintro d ⟨⟩
        exact sign
      · rintro ⟨⟩
    · rw [if_neg sign]
      constructor
      · rintro d ⟨⟩
      · rintro - d others ⟨⟩ mark
        rw [Bool.eq_false_iff]
        exact fun unary => sign ⟨mark, unary⟩

end Expression

namespace LastNumber

open Expression

theorem text_eq (n : LastNumber) :
    n.text = (n.before ++ n.sign.toList) ++ (n.digits ++ n.after) := by
  rw [text, List.append_assoc _ n.digits]

structure IsLastOf (n : LastNumber) (t : Text) : Prop where
  text : n.text = t
  literal : IsLiteral n.digits
  ends : Text.endsWith Char.isDigit n.digits = true
  after : ∀ c ∈ n.after, c.isDigit = false
  /-- No character before it could be one of its digits, nor its point if it has none. -/
  longest : ∀ p c, n.before ++ n.sign.toList = p ++ [c] →
    c.isDigit = false ∧ (c = '.' → '.' ∈ n.digits)
  signed : ∀ c, n.sign = some c → (c = '+' ∨ c = '-') ∧ IsSignPlace n.before
  unsigned : n.sign = none → ∀ p c, n.before = p ++ [c] → c = '+' ∨ c = '-' → ¬IsSignPlace p

theorem IsLastOf.starts {n : LastNumber} {t : Text} (last : n.IsLastOf t) :
    ∃ d digits, n.digits = d :: digits ∧ isNumeric d = true := by
  obtain ⟨s, c, ends, _⟩ := Text.exists_of_endsWith last.ends
  obtain ⟨d, digits, split⟩ := List.exists_cons_of_ne_nil
    (show n.digits ≠ [] by rw [ends]; exact List.concat_ne_nil c s)
  exact ⟨d, digits, split, last.literal.numeric d (by rw [split]; exact List.mem_cons_self)⟩

theorem before_ofReversed (upTo after : Text) :
    (ofReversed upTo after).before ++ (ofReversed upTo after).sign.toList =
      (splitDigits false upTo).2.reverse := by
  have split := splitSign_append (splitDigits false upTo).2
  unfold ofReversed
  dsimp only
  generalize splitSign (splitDigits false upTo).2 = signed at split ⊢
  rw [← split]
  cases signed.1 <;> simp

theorem isLiteral_ofReversed (upTo after : Text) : IsLiteral (ofReversed upTo after).digits where
  numeric := by
    intro c member
    exact numeric_splitDigits false upTo c (List.mem_reverse.1 member)
  onePoint := by
    have count := count_splitDigits false upTo
    rw [if_neg (by decide)] at count
    unfold ofReversed
    rw [List.count_reverse]
    exact count

theorem endsWith_digits_ofReversed {d : Char} (digit : d.isDigit = true) (rest after : Text) :
    Text.endsWith Char.isDigit (ofReversed (d :: rest) after).digits = true := by
  unfold ofReversed splitDigits
  rw [if_pos digit]
  dsimp only
  rw [List.reverse_cons, Text.endsWith_append_singleton]
  exact digit

theorem isLastOf_ofReversed {d : Char} {rest after : Text} (digit : d.isDigit = true)
    (others : ∀ c ∈ after, c.isDigit = false) :
    (ofReversed (d :: rest) after).IsLastOf ((d :: rest).reverse ++ after.reverse) where
  text := text_ofReversed (d :: rest) after
  literal := isLiteral_ofReversed (d :: rest) after
  ends := endsWith_digits_ofReversed digit rest after
  after := by
    intro c member
    exact others c (List.mem_reverse.1 member)
  longest := by
    intro p c split
    rw [before_ofReversed] at split
    obtain ⟨other, second⟩ := splitDigits_stops (eq_cons_of_reverse split)
    refine ⟨other, fun point => ?_⟩
    exact List.mem_reverse.2 ((second point).resolve_left (by decide))
  signed := by
    intro c marked
    obtain ⟨mark, unary⟩ := (splitSign_spec (splitDigits false (d :: rest)).2).1 c marked
    refine ⟨mark, ?_⟩
    rw [← isUnaryContext_reverse]
    unfold ofReversed
    rw [List.reverse_reverse]
    exact unary
  unsigned := by
    intro unmarked p c split mark
    have context := (splitSign_spec (splitDigits false (d :: rest)).2).2 unmarked c p.reverse
      (eq_cons_of_reverse split) mark
    rw [← isUnaryContext_reverse, context]
    decide

theorem isLastOf_of_find? {t : Text} {n : LastNumber} (found : find? t = some n) :
    n.IsLastOf t := by
  have split : t = (t.reverse.dropWhile (!·.isDigit)).reverse ++
      (t.reverse.takeWhile (!·.isDigit)).reverse := by
    rw [← List.reverse_append, List.takeWhile_append_dropWhile, List.reverse_reverse]
  have others : ∀ c ∈ t.reverse.takeWhile (!·.isDigit), c.isDigit = false := by
    intro c member
    simpa using List.all_eq_true.1 List.all_takeWhile c member
  simp only [find?] at found
  cases upTo : t.reverse.dropWhile (!·.isDigit) with
  | nil =>
    rw [upTo] at found
    cases found
  | cons d rest =>
    have digit : d.isDigit = true := by
      have head := List.head?_dropWhile_not (!·.isDigit) t.reverse
      rw [upTo] at head
      simpa using head
    rw [upTo] at found split
    rw [split]
    rw [if_neg (List.cons_ne_nil d rest)] at found
    rw [← Option.some.inj found]
    exact isLastOf_ofReversed digit others

theorem splitSign_of_isLastOf {n : LastNumber} {t : Text} (last : n.IsLastOf t) :
    splitSign (n.before ++ n.sign.toList).reverse = (n.sign, n.before.reverse) := by
  cases sign : n.sign with
  | some c =>
    obtain ⟨mark, place⟩ := last.signed c sign
    rw [Option.toList_some, List.reverse_append, List.reverse_singleton, List.singleton_append,
      splitSign, if_pos ⟨mark, (isUnaryContext_reverse _).2 place⟩]
  | none =>
    rw [Option.toList_none, List.append_nil]
    rcases List.eq_nil_or_concat n.before with empty | ⟨p, c, split⟩
    · rw [empty]
      rfl
    · rw [List.concat_eq_append] at split
      have notSign : ¬((c = '+' ∨ c = '-') ∧ isUnaryContext p.reverse = true) := by
        rintro ⟨mark, unary⟩
        exact last.unsigned sign p c split mark ((isUnaryContext_reverse p).1 unary)
      rw [split, List.reverse_append, List.reverse_singleton, List.singleton_append, splitSign,
        if_neg notSign]

theorem find?_eq_some_iff {t : Text} {n : LastNumber} : find? t = some n ↔ n.IsLastOf t := by
  refine ⟨isLastOf_of_find?, ?_⟩
  intro last
  obtain ⟨q, d, ends, digit⟩ := Text.exists_of_endsWith last.ends
  have digits : (d :: q.reverse).reverse = n.digits := by simp [ends]
  have backwards : t.reverse =
      n.after.reverse ++ (d :: q.reverse ++ (n.before ++ n.sign.toList).reverse) := by
    rw [← last.text, n.text_eq, ends]
    simp
  have others : ∀ c ∈ n.after.reverse, (!c.isDigit) = true := by
    intro c member
    rw [last.after c (List.mem_reverse.1 member)]
    rfl
  have run : splitDigits false (d :: q.reverse ++ (n.before ++ n.sign.toList).reverse) =
      (d :: q.reverse, (n.before ++ n.sign.toList).reverse) := by
    apply splitDigits_append_of_stops
    · intro c member
      exact last.literal.numeric c (by rw [← digits]; exact List.mem_reverse.2 member)
    · rw [← List.count_reverse, digits]
      exact last.literal.onePoint
    · intro c rest split
      obtain ⟨other, second⟩ := last.longest rest.reverse c (eq_append_of_reverse split)
      refine ⟨other, fun point => .inr ?_⟩
      rw [← List.mem_reverse, digits]
      exact second point
  unfold find?
  rw [backwards, List.dropWhile_append_of_pos others, List.takeWhile_append_of_pos others,
    List.cons_append, List.dropWhile_cons_of_neg (by simp [digit]),
    List.takeWhile_cons_of_neg (by simp [digit]), ← List.cons_append, List.append_nil]
  dsimp only
  rw [if_neg (by simp), ofReversed, run, splitSign_of_isLastOf last]
  simp only [List.reverse_reverse, digits]

theorem find?_eq_none_iff {t : Text} : find? t = none ↔ ∀ c ∈ t, c.isDigit = false := by
  have digitless : t.reverse.dropWhile (!·.isDigit) = [] ↔ ∀ c ∈ t, c.isDigit = false := by
    simp [List.dropWhile_eq_nil_iff]
  rw [← digitless]
  unfold find?
  dsimp only
  split
  next empty => simp [empty]
  next nonempty => simp [nonempty]

def flippedSign (n : LastNumber) : Text := if n.sign = some '-' then [] else ['-']

theorem negated_eq (n : LastNumber) :
    n.negated = (n.before ++ n.flippedSign) ++ (n.digits ++ n.after) := by
  unfold negated flippedSign
  split
  · rw [List.append_nil, List.append_assoc]
  · rw [List.append_assoc, List.append_assoc n.before]
    rfl

theorem find?_of_atEnd? {t : Text} {n : LastNumber} (found : atEnd? t = some n) :
    find? t = some n ∧ n.after = [] := by
  simpa [atEnd?, Option.filter_eq_some_iff] using found

end LastNumber

end DeskCalculator
