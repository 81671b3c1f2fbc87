import DeskCalculator.Proofs.Decimal.Positional
import DeskCalculator.Proofs.Expression.LastNumber
import Mathlib.Data.List.Induction
/-!
Rules on how a text may go on: each says of a character whether it may come after what stands before
it. A text keeps a rule when all of its characters do, so parts from the start of it do too, and a
text grows by one character at a time.
-/
namespace DeskCalculator.Expression

/-- Every character keeps the rule after what stands before it. -/
def Keeps (rule : Text → Char → Prop) (t : Text) : Prop :=
  ∀ p c s, t = p ++ c :: s → rule p c

section Keeps

variable {rule : Text → Char → Prop}

theorem keeps_nil : Keeps rule [] := by
  intro p c s split
  exact absurd split.symm (by simp)

theorem Keeps.before {s t : Text} (keeps : Keeps rule (s ++ t)) : Keeps rule s := by
  intro p c u split
  apply keeps p c (u ++ t)
  rw [split, List.append_assoc, List.cons_append]

theorem keeps_append {s t : Text} :
    Keeps rule (s ++ t) ↔ Keeps rule s ∧ ∀ p c u, t = p ++ c :: u → rule (s ++ p) c := by
  constructor
  · intro keeps
    refine ⟨keeps.before, ?_⟩
    intro p c u split
    apply keeps (s ++ p) c u
    rw [split, List.append_assoc]
  · rintro ⟨first, second⟩ p c u split
    rcases List.append_eq_append_iff.1 split with ⟨q, rfl, rest⟩ | ⟨q, rfl, rest⟩
    · exact second q c u rest
    · cases q with
      | nil =>
        have here := second [] c u rest.symm
        rw [List.append_nil, List.append_nil] at here
        exact here
      | cons d q =>
        obtain ⟨rfl, _⟩ := List.cons_eq_cons.1 rest
        exact first p c q rfl

theorem keeps_append_singleton {t : Text} {c : Char} :
    Keeps rule (t ++ [c]) ↔ Keeps rule t ∧ rule t c := by
  rw [keeps_append]
  constructor
  · rintro ⟨keeps, last⟩
    have here := last [] c [] rfl
    rw [List.append_nil] at here
    exact ⟨keeps, here⟩
  · rintro ⟨keeps, here⟩
    refine ⟨keeps, ?_⟩
    intro p d u split
    cases p with
    | nil =>
      obtain ⟨rfl, _⟩ := List.cons_eq_cons.1 split
      rw [List.append_nil]
      exact here
    | cons e p => exact absurd split (by simp)

theorem Keeps.append {t u : Text} (keeps : Keeps rule t) (free : ∀ p, ∀ c ∈ u, rule p c) :
    Keeps rule (t ++ u) := by
  rw [keeps_append]
  refine ⟨keeps, ?_⟩
  rintro p c s rfl
  exact free _ c (by simp)

theorem keeps_append_cons {s t : Text} {d : Char} (here : ∀ p, rule p d)
    (hides : ∀ p q c, rule (p ++ d :: q) c ↔ rule (d :: q) c) :
    Keeps rule (s ++ d :: t) ↔ Keeps rule s ∧ Keeps rule (d :: t) := by
  rw [keeps_append]
  apply and_congr_right'
  constructor
  · intro keeps p c u split
    cases p with
    | nil =>
      obtain ⟨rfl, _⟩ := List.cons_eq_cons.1 split
      exact here []
    | cons e p =>
      obtain ⟨rfl, rfl⟩ := List.cons_eq_cons.1 split
      exact (hides s p c).1 (keeps _ c u rfl)
  · intro keeps p c u split
    cases p with
    | nil =>
      obtain ⟨rfl, _⟩ := List.cons_eq_cons.1 split
      exact here _
    | cons e p =>
      obtain ⟨rfl, rfl⟩ := List.cons_eq_cons.1 split
      exact (hides s p c).2 (keeps _ c u rfl)

theorem keeps_and {other : Text → Char → Prop} {t : Text} :
    Keeps (fun p c => rule p c ∧ other p c) t ↔ Keeps rule t ∧ Keeps other t := by
  constructor
  · intro keeps
    exact ⟨fun p c s split => (keeps p c s split).1, fun p c s split => (keeps p c s split).2⟩
  · rintro ⟨first, second⟩ p c s split
    exact ⟨first p c s split, second p c s split⟩

theorem keeps_forall_mem {p : Char → Prop} {t : Text} :
    Keeps (fun _ c => p c) t ↔ ∀ c ∈ t, p c := by
  constructor
  · intro keeps c member
    obtain ⟨s, u, split⟩ := List.append_of_mem member
    exact keeps s c u split
  · rintro all s c u rfl
    exact all c (by simp)

end Keeps

/-! ## Characters -/

def isWritten (c : Char) : Bool := isNumeric c || isDelimiter c

theorem isWritten_eq (c : Char) : isWritten c = (isNumeric c || isDelimiter c) := rfl

theorem isNumeric_eq_not_isDelimiter {c : Char} (written : isWritten c = true) :
    isNumeric c = !isDelimiter c := by
  cases numeric : isNumeric c with
  | true => rw [isDelimiter_eq_false ((isNumeric_iff c).1 numeric), Bool.not_false]
  | false =>
    rw [isWritten_eq, numeric, Bool.false_or] at written
    rw [written, Bool.not_true]

/-! ## Numbers -/

structure IsRun (before run after : Text) : Prop where
  nonempty : run ≠ []
  numeric : ∀ c ∈ run, isNumeric c = true
  starts : before.endsWith isNumeric = false
  stops : ∀ c s, after = c :: s → isNumeric c = false

def HasPlainRuns (t : Text) : Prop :=
  ∀ p r s, t = p ++ r ++ s → IsRun p r s →
    (∃ c d, r = c :: d ∧ c.isDigit = true) ∧ r.count '.' ≤ 1

def pointRule (p : Text) (c : Char) : Prop :=
  c = '.' → ∃ q digits, p = q ++ digits ∧ IsDigits digits ∧ q.endsWith isNumeric = false

theorem exists_append_run (t : Text) :
    ∃ q r, t = q ++ r ∧ q.endsWith isNumeric = false ∧ ∀ c ∈ r, isNumeric c = true := by
  induction t using List.reverseRecOn with
  | nil => exact ⟨[], [], rfl, rfl, by simp⟩
  | append_singleton t c ih =>
    by_cases numeric : isNumeric c = true
    · obtain ⟨q, r, rfl, ends, all⟩ := ih
      refine ⟨q, r ++ [c], by simp, ends, ?_⟩
      intro d member
      rcases List.mem_append.1 member with old | new
      · exact all d old
      · rw [List.mem_singleton.1 new]
        exact numeric
    · refine ⟨t ++ [c], [], by simp, ?_, by simp⟩
      rw [Text.endsWith_append_singleton]
      exact Bool.eq_false_iff.2 numeric

theorem eq_nil_of_endsWith {p m : Text} (ends : (p ++ m).endsWith isNumeric = false)
    (numeric : ∀ c ∈ m, isNumeric c = true) : m = [] := by
  by_cases empty : m = []
  · exact empty
  · rw [← List.dropLast_concat_getLast empty, ← List.append_assoc,
      Text.endsWith_append_singleton] at ends
    rw [numeric _ (List.getLast_mem empty)] at ends
    cases ends

theorem append_run_inj {p q r s : Text} (same : p ++ r = q ++ s)
    (left : p.endsWith isNumeric = false) (right : q.endsWith isNumeric = false)
    (numeric : ∀ c ∈ r, isNumeric c = true) (others : ∀ c ∈ s, isNumeric c = true) :
    p = q ∧ r = s := by
  rcases List.append_eq_append_iff.1 same with ⟨m, rfl, rest⟩ | ⟨m, rfl, rest⟩
  · have between : m = [] := by
      apply eq_nil_of_endsWith right
      intro c member
      exact numeric c (by rw [rest]; exact List.mem_append_left s member)
    subst between
    exact ⟨(List.append_nil p).symm, rest⟩
  · have between : m = [] := by
      apply eq_nil_of_endsWith left
      intro c member
      exact others c (by rw [rest]; exact List.mem_append_left r member)
    subst between
    exact ⟨List.append_nil q, rest.symm⟩

theorem isRun_takeWhile {q r : Text} (nonempty : r ≠ []) (ends : q.endsWith isNumeric = false)
    (numeric : ∀ c ∈ r, isNumeric c = true) (s : Text) :
    IsRun q (r ++ s.takeWhile isNumeric) (s.dropWhile isNumeric) where
  nonempty := by simp [nonempty]
  numeric := by
    intro c member
    rcases List.mem_append.1 member with old | new
    · exact numeric c old
    · exact List.all_eq_true.1 List.all_takeWhile c new
  starts := ends
  stops := by
    intro c rest stop
    have head := List.head?_dropWhile_not isNumeric s
    rw [stop] at head
    simpa using head

theorem pointRule_of_hasPlainRuns {t : Text} (plain : HasPlainRuns t) : Keeps pointRule t := by
  rintro p c s split rfl
  obtain ⟨q, r, rfl, ends, numeric⟩ := exists_append_run p
  have run : IsRun q ((r ++ ['.']) ++ s.takeWhile isNumeric) (s.dropWhile isNumeric) := by
    apply isRun_takeWhile (by simp) ends
    exact List.forall_mem_append.2 ⟨numeric, List.forall_mem_singleton.2 rfl⟩
  have parts : t = q ++ ((r ++ ['.']) ++ s.takeWhile isNumeric) ++ s.dropWhile isNumeric := by
    rw [split, List.append_assoc q, List.append_assoc q, List.append_assoc (r ++ ['.']),
      List.takeWhile_append_dropWhile, List.append_assoc r, List.singleton_append]
  obtain ⟨⟨c, d, first, digit⟩, count⟩ := plain _ _ _ parts run
  rw [List.append_assoc, List.singleton_append] at first count
  rw [List.count_append, List.count_cons_self] at count
  have absent : '.' ∉ r := List.count_eq_zero.1 (by omega)
  refine ⟨q, r, rfl, ⟨?_, digits_of_numeric numeric absent⟩, ends⟩
  rintro rfl
  obtain ⟨rfl, _⟩ := List.cons_eq_cons.1 first
  exact absurd digit (by decide)

theorem isDigits_of_pointRule {q r : Text} (rule : pointRule (q ++ r) '.')
    (ends : q.endsWith isNumeric = false) (numeric : ∀ c ∈ r, isNumeric c = true) :
    IsDigits r := by
  obtain ⟨p, digits, same, all, starts⟩ := rule rfl
  obtain ⟨_, rfl⟩ := append_run_inj same ends starts numeric
    (fun c member => isNumeric_of_isDigit (all.2 c member))
  exact all

theorem isDigits_before_point {t p a b s : Text} (keeps : Keeps pointRule t)
    (split : t = p ++ (a ++ '.' :: b) ++ s) (run : IsRun p (a ++ '.' :: b) s) : IsDigits a := by
  have parts : t = (p ++ a) ++ '.' :: (b ++ s) := by
    rw [split, List.append_assoc, List.append_assoc, List.append_assoc, List.cons_append]
  apply isDigits_of_pointRule (keeps _ _ _ parts) run.starts
  intro c member
  exact run.numeric c (List.mem_append_left _ member)

theorem hasPlainRuns_of_pointRule {t : Text} (keeps : Keeps pointRule t) : HasPlainRuns t := by
  intro p r s split run
  constructor
  · cases r with
    | nil => exact absurd rfl run.nonempty
    | cons c d =>
      refine ⟨c, d, rfl, isDigit_of_isNumeric (run.numeric c List.mem_cons_self) ?_⟩
      rintro rfl
      have digits : IsDigits [] := isDigits_before_point keeps split run
      exact digits.1 rfl
  · by_cases point : '.' ∈ r
    · obtain ⟨a, b, rfl⟩ := List.append_of_mem point
      have first := isDigits_before_point keeps split run
      have later : '.' ∉ b := by
        intro member
        obtain ⟨c, d, rfl⟩ := List.append_of_mem member
        have again : a ++ '.' :: (c ++ '.' :: d) = (a ++ '.' :: c) ++ '.' :: d := by simp
        rw [again] at split run
        have digits := isDigits_before_point keeps split run
        exact absurd (digits.2 '.' (by simp)) (by decide)
      have one : (a ++ '.' :: b).count '.' = 1 := by
        rw [List.count_append, List.count_cons_self, count_point first.2,
          List.count_eq_zero.2 later]
      exact Nat.le_of_eq one
    · rw [List.count_eq_zero.2 point]
      exact Nat.zero_le 1

theorem hasPlainRuns_iff (t : Text) : HasPlainRuns t ↔ Keeps pointRule t :=
  ⟨pointRule_of_hasPlainRuns, hasPlainRuns_of_pointRule⟩

theorem endsWith_before_last {n : LastNumber} {t : Text} (last : n.IsLastOf t)
    (plain : HasPlainRuns t) : (n.before ++ n.sign.toList).endsWith isNumeric = false := by
  -- A point that the number could not take would be the second one of its run.
  rw [Bool.eq_false_iff]
  intro ends
  obtain ⟨p, c, split, numeric⟩ := Text.exists_of_endsWith ends
  obtain ⟨other, second⟩ := last.longest p c split
  have point : c = '.' := by
    rcases (isNumeric_iff c).1 numeric with digit | point
    · rw [other] at digit
      cases digit
    · exact point
  obtain ⟨a, b, digits⟩ := List.append_of_mem (second point)
  obtain ⟨q, r, rfl, starts, earlier⟩ := exists_append_run p
  have parts : t = (q ++ (r ++ ([c] ++ a))) ++ '.' :: (b ++ n.after) := by
    rw [← last.text, n.text_eq, split, digits]
    simp
  have within : ∀ d ∈ a, isNumeric d = true := by
    intro d member
    exact last.literal.numeric d (by rw [digits]; exact List.mem_append_left _ member)
  have all : IsDigits (r ++ ([c] ++ a)) := by
    apply isDigits_of_pointRule (pointRule_of_hasPlainRuns plain _ _ _ parts) starts
    refine List.forall_mem_append.2 ⟨earlier, ?_⟩
    exact List.forall_mem_append.2 ⟨List.forall_mem_singleton.2 numeric, within⟩
  have digit := all.2 c (by simp)
  rw [other] at digit
  cases digit

theorem pointRule_of_isPositional {t body : Text} (ends : t.endsWith isNumeric = false)
    (positional : Decimal.IsPositional body) :
    ∀ p c s, body = p ++ c :: s → pointRule (t ++ p) c := by
  rintro p c s split rfl
  cases positional with
  | whole digits => exact absurd (digits.2 '.' (by rw [split]; simp)) (by decide)
  | @fraction a b before after =>
    refine ⟨t, p, rfl, ?_, ends⟩
    have first : a = p := by
      rcases List.append_eq_append_iff.1 split with ⟨m, rfl, rest⟩ | ⟨m, rfl, rest⟩
      · cases m with
        | nil => rw [List.append_nil]
        | cons d m =>
          obtain ⟨rfl, rfl⟩ := List.cons_eq_cons.1 rest
          exact absurd (after.2 '.' (by simp)) (by decide)
      · cases m with
        | nil => rw [List.append_nil]
        | cons d m =>
          obtain ⟨rfl, _⟩ := List.cons_eq_cons.1 rest
          exact absurd (before.2 '.' (by simp)) (by decide)
    rw [← first]
    exact before

end DeskCalculator.Expression
