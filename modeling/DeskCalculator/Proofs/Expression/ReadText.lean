import DeskCalculator.Proofs.Expression.Recognition
import Mathlib.Data.List.Induction
/-!
The texts behind the states of the reader of trees. What waits in a state tells how the text that
led there divides into finished parts of the grammar, and every step keeps to that; so a text that
the reader gives a tree is a sentence with that tree.
-/
namespace DeskCalculator.Expression

open Expression.Tree (supply total step finish readFrom advance OperandStep OperatorStep)

def SumText : Option (Tree × Additive) → Text → Prop
  | none, t => t = []
  | some (e, .plus), t => ∃ s, Derives .sum s e ∧ t = s ++ ['+']
  | some (e, .minus), t => ∃ s, Derives .sum s e ∧ t = s ++ ['-']

def ProductText : Option (Tree × Multiplicative) → Text → Prop
  | none, t => t = []
  | some (e, .times), t => ∃ s, Derives .product s e ∧ t = s ++ ['*']
  | some (e, .dividedBy), t => ∃ s, Derives .product s e ∧ t = s ++ ['/']

inductive SignText : Bool → Text → Prop where
  | nil : SignText false []
  | skip {negative : Bool} {t : Text} {c : Char} (signs : SignText negative t)
      (skipped : c = ' ' ∨ c = '+') : SignText negative (t ++ [c])
  | minus {negative : Bool} {t : Text} (signs : SignText negative t) :
      SignText (!negative) (t ++ ['-'])

/-- All that stands before an operand in its pair of parentheses. -/
inductive PendingText (pending : Pending Tree) : Text → Prop where
  | intro {a b c : Text} (sum : SumText pending.sum a) (product : ProductText pending.product b)
      (signs : SignText pending.negative c) : PendingText pending (a ++ b ++ c)

inductive TermsText (terms : Terms Tree) : Text → Prop where
  | intro {a b : Text} (sum : SumText terms.sum a) (last : Derives .product b terms.last) :
      TermsText terms (a ++ b)

inductive EnclosingText : List (Pending Tree) → Text → Prop where
  | nil : EnclosingText [] []
  | cons {pending : Pending Tree} {outer : List (Pending Tree)} {a b : Text}
      (before : EnclosingText outer a) (waiting : PendingText pending b) :
      EnclosingText (pending :: outer) (a ++ b ++ ['('])

inductive PhaseText : Phase Tree → Text → Prop where
  | operand {pending : Pending Tree} {t : Text} (waiting : PendingText pending t) :
      PhaseText (.operand pending) t
  | number {pending : Pending Tree} {t u : Text} (waiting : PendingText pending t)
      (literal : IsLiteral u) : PhaseText (.number pending u) (t ++ u)
  | operator {terms : Terms Tree} {t : Text} (finished : TermsText terms t) :
      PhaseText (.operator terms) t

inductive ReadingText : Reading Tree → Text → Prop where
  | intro {enclosing : List (Pending Tree)} {phase : Phase Tree} {a b : Text}
      (before : EnclosingText enclosing a) (inside : PhaseText phase b) :
      ReadingText ⟨enclosing, phase⟩ (a ++ b)

/-! ## Parts of the grammar -/

theorem Derives.blank {rank : Rank} {t : Text} {e : Tree} (derives : Derives rank t e) :
    Derives rank (t ++ [' ']) e := by
  induction derives with
  | number numeral => exact .blankAfter (.number numeral)
  | group inner _ => exact .blankAfter (.group inner)
  | blankAfter primary _ => exact .blankAfter (.blankAfter primary)
  | primary _ ih => exact .primary ih
  | blankBefore _ ih => exact .blankBefore ih
  | plus _ ih => exact .plus ih
  | minus _ ih => exact .minus ih
  | operand _ ih => exact .operand ih
  | times left _ _ ih => rw [List.append_assoc]; exact .times left ih
  | dividedBy left _ _ ih => rw [List.append_assoc]; exact .dividedBy left ih
  | product _ ih => exact .product ih
  | add left _ _ ih => rw [List.append_assoc]; exact .add left ih
  | subtract left _ _ ih => rw [List.append_assoc]; exact .subtract left ih

theorem SignText.operand {negative : Bool} {c t : Text} {e : Tree} (signs : SignText negative c)
    (operand : Derives .operand t e) :
    Derives .operand (c ++ t) (if negative then e.toggle else e) := by
  induction signs generalizing t e with
  | nil => exact operand
  | skip _ skipped ih =>
    rw [List.append_assoc]
    rcases skipped with rfl | rfl
    · exact ih (.blankBefore operand)
    · exact ih (.plus operand)
  | @minus negative _ _ ih =>
    rw [List.append_assoc, List.singleton_append]
    have signed := ih (.minus operand)
    have involutive : e.toggle.toggle = e := signShape_of_derives operand
    cases negative
    · exact signed
    · simpa only [involutive, if_true, Bool.not_true, Bool.false_eq_true, if_false] using signed

theorem PendingText.supply {pending : Pending Tree} {a b : Text} {e : Tree}
    (waiting : PendingText pending a) (primary : Derives .primary b e) :
    TermsText (supply pending e) (a ++ b) := by
  obtain ⟨sum, product, signs⟩ := waiting
  have operand := signs.operand (.primary primary)
  obtain ⟨before, factors, negative⟩ := pending
  rw [List.append_assoc, List.append_assoc]
  match factors, product with
  | none, rfl => exact ⟨sum, .operand operand⟩
  | some (left, .times), ⟨s, derived, rfl⟩ =>
    rw [List.append_assoc s]
    exact ⟨sum, .times derived operand⟩
  | some (left, .dividedBy), ⟨s, derived, rfl⟩ =>
    rw [List.append_assoc s]
    exact ⟨sum, .dividedBy derived operand⟩

theorem TermsText.total {terms : Terms Tree} {t : Text} (finished : TermsText terms t) :
    Derives .sum t (total terms) := by
  obtain ⟨sum, last⟩ := finished
  obtain ⟨before, tree⟩ := terms
  match before, sum with
  | none, rfl => exact .product last
  | some (left, .plus), ⟨s, derived, rfl⟩ =>
    rw [List.append_assoc]
    exact .add derived last
  | some (left, .minus), ⟨s, derived, rfl⟩ =>
    rw [List.append_assoc]
    exact .subtract derived last

theorem TermsText.blank {terms : Terms Tree} {t : Text} (finished : TermsText terms t) :
    TermsText terms (t ++ [' ']) := by
  obtain ⟨sum, last⟩ := finished
  rw [List.append_assoc]
  exact ⟨sum, last.blank⟩

theorem pendingText_empty : PendingText .empty [] := .intro (a := []) (b := []) rfl rfl .nil

theorem pendingText_sum {sum : Option (Tree × Additive)} {t : Text} (text : SumText sum t) :
    PendingText ⟨sum, none, false⟩ t := by
  have waiting : PendingText ⟨sum, none, false⟩ (t ++ [] ++ []) := ⟨text, rfl, .nil⟩
  simpa using waiting

theorem TermsText.pending {terms : Terms Tree} {t : Text} {c : Char} {kind : Multiplicative}
    (finished : TermsText terms t)
    (text : ∀ s, Derives .product s terms.last →
      ProductText (some (terms.last, kind)) (s ++ [c])) :
    PendingText ⟨terms.sum, some (terms.last, kind), false⟩ (t ++ [c]) := by
  obtain @⟨a, b, sum, last⟩ := finished
  have waiting : PendingText ⟨terms.sum, some (terms.last, kind), false⟩ (a ++ (b ++ [c]) ++ []) :=
    ⟨sum, text b last, .nil⟩
  simpa using waiting

/-! ## From the reader to the grammar -/

theorem Tree.OperandStep.text {enclosing : List (Pending Tree)} {pending : Pending Tree} {c : Char}
    {next : Reading Tree} {a b : Text} (moved : OperandStep enclosing pending c next)
    (before : EnclosingText enclosing a) (waiting : PendingText pending b) :
    ReadingText next (a ++ b ++ [c]) := by
  cases moved with
  | skip skipped =>
    obtain ⟨sum, product, signs⟩ := waiting
    rw [List.append_assoc, List.append_assoc _ _ [c]]
    exact ⟨before, .operand ⟨sum, product, signs.skip skipped⟩⟩
  | minus =>
    obtain ⟨sum, product, signs⟩ := waiting
    rw [List.append_assoc, List.append_assoc _ _ ['-']]
    exact ⟨before, .operand ⟨sum, product, signs.minus⟩⟩
  | openGroup =>
    rw [← List.append_nil (a ++ b ++ ['('])]
    exact ⟨.cons before waiting, .operand pendingText_empty⟩
  | number starts =>
    rw [List.append_assoc]
    exact ⟨before, .number waiting (isLiteral_singleton ((isNumeric_iff c).2 starts))⟩

theorem Tree.OperatorStep.text {enclosing : List (Pending Tree)} {terms : Terms Tree} {c : Char}
    {next : Reading Tree} {a b : Text} (moved : OperatorStep enclosing terms c next)
    (before : EnclosingText enclosing a) (finished : TermsText terms b) :
    ReadingText next (a ++ b ++ [c]) := by
  cases moved with
  | blank =>
    rw [List.append_assoc]
    exact ⟨before, .operator finished.blank⟩
  | plus | minus =>
    rw [List.append_assoc]
    exact ⟨before, .operand (pendingText_sum ⟨b, finished.total, rfl⟩)⟩
  | times | dividedBy =>
    rw [List.append_assoc]
    exact ⟨before, .operand (finished.pending fun s last => ⟨s, last, rfl⟩)⟩
  | closeGroup =>
    obtain _ | @⟨_, _, outer, waiting, before, held⟩ := before
    have group : Derives .primary ('(' :: b ++ [')']) (.group (total terms)) :=
      .group finished.total
    have closed := held.supply group
    simpa using ReadingText.intro before (.operator closed)

theorem supplyNumber_text {pending : Pending Tree} {literal a : Text} {terms : Terms Tree}
    (supplied : Tree.supplyNumber pending literal = some terms) (waiting : PendingText pending a)
    (read : IsLiteral literal) : TermsText terms (a ++ literal) := by
  simp only [Tree.supplyNumber] at supplied
  split at supplied
  next digit =>
    cases supplied
    exact waiting.supply (.number ((isNumeral_iff literal).2 ⟨read, digit⟩))
  next => cases supplied

theorem ReadingText.step {r next : Reading Tree} {t : Text} {c : Char} (text : ReadingText r t)
    (moved : step r c = some next) : ReadingText next (t ++ [c]) := by
  obtain ⟨before, inside⟩ := text
  cases inside with
  | operand waiting => exact (OperandStep.of_eq moved).text before waiting
  | operator finished => exact (OperatorStep.of_eq moved).text before finished
  | @number pending a literal waiting read =>
    simp only [Tree.step] at moved
    split at moved
    next goes =>
      cases moved
      rw [List.append_assoc, List.append_assoc]
      exact ⟨before, .number waiting (read.extend goes)⟩
    next =>
      obtain ⟨terms, supplied, moved⟩ := Option.bind_eq_some_iff.1 moved
      exact (OperatorStep.of_eq moved).text before (supplyNumber_text supplied waiting read)

theorem readingText_start : ReadingText .start [] := .intro .nil (.operand pendingText_empty)

theorem readingText_of_advance {t : Text} {r : Reading Tree} (led : advance .start t = some r) :
    ReadingText r t := by
  induction t using List.reverseRecOn generalizing r with
  | nil =>
    cases led
    exact readingText_start
  | append_singleton t c ih =>
    rw [Tree.advance_append_singleton] at led
    obtain ⟨earlier, led, moved⟩ := Option.bind_eq_some_iff.1 led
    exact (ih led).step moved

/-! ## Where an operand is due -/

theorem isNumeric_of_step {r : Reading Tree} {c : Char} {enclosing : List (Pending Tree)}
    {pending : Pending Tree} (moved : step r c = some ⟨enclosing, .operand pending⟩) :
    isNumeric c = false := by
  have operator {before : List (Pending Tree)} {terms : Terms Tree}
      (moved : OperatorStep before terms c ⟨enclosing, .operand pending⟩) :
      isNumeric c = false := by
    cases moved <;> rfl
  obtain ⟨before, phase⟩ := r
  cases phase with
  | operand waiting =>
    cases OperandStep.of_eq moved with
    | skip skipped => rcases skipped with rfl | rfl <;> rfl
    | minus | openGroup => rfl
  | operator terms => exact operator (OperatorStep.of_eq moved)
  | number waiting literal =>
    simp only [Tree.step] at moved
    split at moved
    next => cases moved
    next =>
      obtain ⟨terms, _, moved⟩ := Option.bind_eq_some_iff.1 moved
      exact operator (OperatorStep.of_eq moved)

theorem endsWith_of_operand {t : Text} {enclosing : List (Pending Tree)} {pending : Pending Tree}
    (led : advance .start t = some ⟨enclosing, .operand pending⟩) :
    t.endsWith isNumeric = false := by
  rcases List.eq_nil_or_concat t with rfl | ⟨p, c, rfl⟩
  · rfl
  · rw [List.concat_eq_append] at led ⊢
    rw [Tree.advance_append_singleton] at led
    obtain ⟨earlier, _, moved⟩ := Option.bind_eq_some_iff.1 led
    rw [Text.endsWith_append_singleton, isNumeric_of_step moved]

theorem exists_number_start {t literal : Text} {enclosing : List (Pending Tree)}
    {pending : Pending Tree} (led : advance .start t = some ⟨enclosing, .number pending literal⟩) :
    ∃ p, t = p ++ literal ∧ literal ≠ [] ∧ IsLiteral literal ∧
      advance .start p = some ⟨enclosing, .operand pending⟩ := by
  induction t using List.reverseRecOn generalizing literal with
  | nil => cases led
  | append_singleton t c ih =>
    rw [Tree.advance_append_singleton] at led
    obtain ⟨⟨before, phase⟩, here, moved⟩ := Option.bind_eq_some_iff.1 led
    cases phase with
    | operand waiting =>
      cases OperandStep.of_eq moved with
      | number starts =>
        have read := isLiteral_singleton ((isNumeric_iff c).2 starts)
        exact ⟨t, rfl, List.cons_ne_nil c [], read, here⟩
    | operator terms => cases OperatorStep.of_eq moved
    | number waiting earlier =>
      simp only [Tree.step] at moved
      split at moved
      next goes =>
        cases moved
        obtain ⟨p, rfl, _, read, begun⟩ := ih here
        exact ⟨p, List.append_assoc p earlier [c], List.concat_ne_nil c earlier, read.extend goes,
          begun⟩
      next =>
        obtain ⟨terms, _, moved⟩ := Option.bind_eq_some_iff.1 moved
        cases OperatorStep.of_eq moved

theorem close_text {enclosing : List (Pending Tree)} {terms : Terms Tree} {a b : Text} {e : Tree}
    (closed : Tree.close enclosing terms = some e) (before : EnclosingText enclosing a)
    (finished : TermsText terms b) : Derives .sum (a ++ b) e := by
  cases before with
  | nil =>
    cases closed
    exact finished.total
  | cons => cases closed

theorem ReadingText.finish {r : Reading Tree} {t : Text} {e : Tree} (text : ReadingText r t)
    (ended : finish r = some e) : Derives .sum t e := by
  obtain ⟨before, inside⟩ := text
  cases inside with
  | operand => cases ended
  | operator finished => exact close_text ended before finished
  | number waiting read =>
    obtain ⟨terms, supplied, ended⟩ := Option.bind_eq_some_iff.1 ended
    exact close_text ended before (supplyNumber_text supplied waiting read)

/-- The grammar gives a text the tree that the reader gives it, and no other. -/
theorem derives_iff_ofText? (t : Text) (e : Tree) :
    Derives .sum t e ↔ Tree.ofText? t = some e := by
  constructor
  · exact ofText?_of_derives
  · intro read
    obtain ⟨r, led, ended⟩ := Option.bind_eq_some_iff.1 read
    exact (readingText_of_advance led).finish ended

instance (t : Text) : Decidable (IsSentence t) :=
  decidable_of_iff ((Tree.ofText? t).isSome = true) <| by
    simp only [Option.isSome_iff_exists, IsSentence, derives_iff_ofText?]

example : IsSentence "-(1.+ .5)*2".toList := by decide
example : ¬IsSentence "(1)2".toList := by decide

end DeskCalculator.Expression
