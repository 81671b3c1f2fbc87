import DeskCalculator.Config
import DeskCalculator.Proofs.Engine.Change
import Mathlib.Data.List.Induction
/-!
What a run has left behind: something that one of its operations did and no later one ended. A
result or a failure is left behind until an input counts that goes on from it, and a digit typed
until then starts a new expression, also after a parenthesis.
-/
namespace DeskCalculator

namespace Engine

open Expression (currentRun)

section Since

variable {did ended : Engine → Operation → Prop} {e : Engine}

/-- The operation after the earlier ones did it, and none of the later ones ended it. -/
def Lasts (did ended : Engine → Operation → Prop) (e : Engine) (earlier : List Operation)
    (op : Operation) (later : List Operation) : Prop :=
  did (e.run earlier) op ∧ ∀ between next rest, later = between ++ next :: rest →
    ¬ended (e.run (earlier ++ op :: between)) next

/-- Some operation of a run did it, and no later one ended it. -/
def Since (did ended : Engine → Operation → Prop) (e : Engine) (operations : List Operation) :
    Prop :=
  ∃ earlier op later, operations = earlier ++ op :: later ∧ Lasts did ended e earlier op later

theorem lasts_nil {earlier : List Operation} {op : Operation} :
    Lasts did ended e earlier op [] ↔ did (e.run earlier) op := by
  refine ⟨And.left, fun done => ⟨done, ?_⟩⟩
  intro between next rest split
  exact absurd split.symm (by simp)

theorem lasts_append_singleton {earlier later : List Operation} {op next : Operation} :
    Lasts did ended e earlier op (later ++ [next]) ↔
      Lasts did ended e earlier op later ∧ ¬ended (e.run (earlier ++ op :: later)) next := by
  constructor
  · intro lasts
    refine ⟨⟨lasts.1, ?_⟩, lasts.2 later next [] rfl⟩
    intro between other rest split
    apply lasts.2 between other (rest ++ [next])
    rw [split, List.append_assoc, List.cons_append]
  · intro lasts
    refine ⟨lasts.1.1, ?_⟩
    intro between other rest split
    rcases List.eq_nil_or_concat rest with rfl | ⟨rest, last, rfl⟩
    · obtain ⟨rfl, same⟩ := List.append_inj' split rfl
      obtain ⟨rfl, _⟩ := List.cons_eq_cons.1 same
      exact lasts.2
    · rw [List.concat_eq_append, ← List.cons_append, ← List.append_assoc] at split
      exact lasts.1.2 between other rest (List.append_inj' split rfl).1

theorem not_since_nil : ¬Since did ended e [] := by
  intro since
  obtain ⟨earlier, op, later, split, _⟩ := since
  exact absurd split.symm (by simp)

theorem since_append_singleton {operations : List Operation} {op : Operation} :
    Since did ended e (operations ++ [op]) ↔
      did (e.run operations) op ∨ Since did ended e operations ∧ ¬ended (e.run operations) op := by
  constructor
  · intro since
    obtain ⟨earlier, first, later, split, lasts⟩ := since
    rcases List.eq_nil_or_concat later with rfl | ⟨later, last, rfl⟩
    · obtain ⟨rfl, same⟩ := List.append_inj' split rfl
      obtain ⟨rfl, _⟩ := List.cons_eq_cons.1 same
      exact .inl (lasts_nil.1 lasts)
    · rw [List.concat_eq_append, ← List.cons_append, ← List.append_assoc] at split
      obtain ⟨rfl, same⟩ := List.append_inj' split rfl
      obtain ⟨rfl, _⟩ := List.cons_eq_cons.1 same
      rw [List.concat_eq_append] at lasts
      obtain ⟨before, goes⟩ := lasts_append_singleton.1 lasts
      exact .inr ⟨⟨earlier, first, later, rfl, before⟩, goes⟩
  · intro last
    rcases last with done | ⟨⟨earlier, first, later, rfl, lasts⟩, goes⟩
    · exact ⟨operations, op, [], rfl, lasts_nil.2 done⟩
    · refine ⟨earlier, first, later ++ [op], ?_, lasts_append_singleton.2 ⟨lasts, goes⟩⟩
      rw [List.append_assoc, List.cons_append]

theorem run_iff_since {P : Engine → Prop} (start : ¬P e)
    (step : ∀ e op, P (e.apply op) ↔ did e op ∨ P e ∧ ¬ended e op) (operations : List Operation) :
    P (e.run operations) ↔ Since did ended e operations := by
  induction operations using List.reverseRecOn with
  | nil => exact iff_of_false start not_since_nil
  | append_singleton operations op ih =>
    rw [run_append_singleton, step, ih, since_append_singleton]

end Since

/-! ## Results and failures -/

def Finishes (e : Engine) (op : Operation) : Prop :=
  op = .equals ∧ e.expression ≠ [] ∨ e.Fails op

def Proceeds (e : Engine) : Operation → Prop
  | .digit c => c.isDigit = true ∨ c = '.'
  | .operator op => e.withOperator? op ≠ none
  | .clear => True
  | _ => False

theorem Finishes.latest {e : Engine} {op : Operation} (finishes : e.Finishes op) :
    (e.apply op).latest = .equals := by
  rcases finishes with ⟨rfl, nonempty⟩ | fails
  · have pressed : e.apply .equals = _ := if_neg nonempty
    rw [pressed]
    split <;> rfl
  · rw [apply_of_fails fails]
    rfl

theorem latest_typeDigit (e : Engine) (c : Char) :
    (e.typeDigit c).latest = .equals ↔ e.latest = .equals ∧ ¬(c.isDigit = true ∨ c = '.') := by
  by_cases typed : c.isDigit = true ∨ c = '.'
  · refine iff_of_false ?_ (fun both => both.2 typed)
    rw [typeDigit_eq e (by simpa using typed)]
    by_cases second : c = '.' ∧ (currentRun e.resumed.expression).contains '.' = true
    · have fresh : e.latest ≠ .equals := by
        apply latest_of_currentRun
        intro empty
        rw [empty] at second
        cases second.2
      rw [if_pos second, resumed, if_neg fresh]
      exact fresh
    · rw [if_neg second]
      simp [grown, shown]
  · rw [typeDigit, if_neg (by simpa using typed)]
    exact (and_iff_left typed).symm

theorem latest_typeOperator (e : Engine) (op : Operator) :
    (e.typeOperator op).latest = .equals ↔ e.latest = .equals ∧ ¬e.withOperator? op ≠ none := by
  unfold typeOperator
  cases typed : e.withOperator? op with
  | none => simp
  | some t => simp [shown]

theorem latest_of_change {e e' : Engine} {op : Operation} (change : Change e op e')
    (typed : ∀ c, op ≠ .digit c) (key : ∀ o, op ≠ .operator o) (clear : op ≠ .clear)
    (goes : ¬e.Finishes op) : e'.latest = e.latest := by
  cases change with
  | digit | point | leadingPoint => exact absurd rfl (typed _)
  | sign | replace | append => exact absurd rfl (key _)
  | clear => exact absurd rfl clear
  | result nonempty => exact absurd (.inl ⟨rfl, nonempty⟩) goes
  | fail fails => exact absurd (.inr fails) goes
  | _ => rfl

theorem latest_apply (e : Engine) (op : Operation) :
    (e.apply op).latest = .equals ↔ e.Finishes op ∨ e.latest = .equals ∧ ¬e.Proceeds op := by
  by_cases finishes : e.Finishes op
  · exact iff_of_true finishes.latest (.inl finishes)
  · rw [or_iff_right finishes]
    cases op with
    | digit c => exact e.latest_typeDigit c
    | operator op => exact e.latest_typeOperator op
    | clear =>
      have fresh : (e.apply .clear).latest = .none := rfl
      rw [fresh]
      exact iff_of_false (by decide) (fun both => both.2 trivial)
    | _ =>
      rw [latest_of_change (e.change_apply _) (by simp) (by simp) (by simp) finishes]
      exact (and_iff_left id).symm

theorem latest_run (evaluator : Evaluator) (operations : List Operation) :
    ((initial evaluator).run operations).latest = .equals ↔
      Since Finishes Proceeds (initial evaluator) operations :=
  run_iff_since (P := fun e => e.latest = .equals) (by simp [initial]) latest_apply operations

/-! ## A digit after a parenthesis -/

theorem expression_typeDigit (e : Engine) {d : Char} (digit : d.isDigit = true) :
    (e.typeDigit d).expression = if e.latest = .equals then [d] else e.expression ++ [d] := by
  rw [typeDigit_of_isDigit e digit]
  change e.resumed.expression ++ [d] = _
  unfold resumed
  split <;> rfl

theorem apply_parenthesis (e : Engine) {key : Operation}
    (parenthesis : key = .openGroup ∨ key = .closeGroup ∨ key = .parenthesis) :
    e.apply key = e.openGroup ∨ e.apply key = e.closeGroup := by
  rcases parenthesis with rfl | rfl | rfl
  · exact .inl rfl
  · exact .inr rfl
  · change e.parenthesis = _ ∨ e.parenthesis = _
    unfold parenthesis
    split
    · exact .inl rfl
    · exact .inr rfl

theorem latest_parenthesis (e : Engine) {key : Operation}
    (parenthesis : key = .openGroup ∨ key = .closeGroup ∨ key = .parenthesis) :
    (e.apply key).latest = e.latest ∧ (e.apply key).expression ≠ [] := by
  -- A parenthesis is no input to go on from, although something is written.
  rcases e.apply_parenthesis parenthesis with opened | closed
  · rw [opened]
    exact ⟨rfl, List.concat_ne_nil '(' e.expression⟩
  · rw [closed]
    exact ⟨rfl, List.concat_ne_nil ')' e.expression⟩

/-- A digit goes on from the parenthesis before it, exactly if the run has left no result and no
failure behind; otherwise the digit is all that there is afterwards. -/
theorem digit_after_parenthesis_iff (evaluator : Evaluator) (operations : List Operation)
    {key : Operation} (parenthesis : key = .openGroup ∨ key = .closeGroup ∨ key = .parenthesis)
    {d : Char} (digit : d.isDigit = true) :
    let e := (initial evaluator).run operations
    (((e.apply key).apply (.digit d)).expression = (e.apply key).expression ++ [d] ↔
        ¬Since Finishes Proceeds (initial evaluator) operations) ∧
      (Since Finishes Proceeds (initial evaluator) operations →
        ((e.apply key).apply (.digit d)).expression = [d]) := by
  intro e
  obtain ⟨latest, written⟩ := e.latest_parenthesis parenthesis
  have typed : ((e.apply key).apply (.digit d)).expression =
      if e.latest = .equals then [d] else (e.apply key).expression ++ [d] := by
    rw [← latest]
    exact expression_typeDigit _ digit
  rw [typed, ← latest_run]
  by_cases finished : e.latest = .equals
  · rw [if_pos finished]
    refine ⟨iff_of_false ?_ (fun goes => goes finished), fun _ => rfl⟩
    intro same
    exact written (List.self_eq_append_left.1 same)
  · rw [if_neg finished]
    exact ⟨iff_of_true rfl finished, fun other => absurd other finished⟩

theorem digit_after_parenthesis_iff_product :
    let typed : List Operation := [.digit '2', .equals, .operator .multiply]
    let e := (initial ({} : Config).evaluator).run typed
    Char.isDigit '3' = true ∧
      (((e.apply .parenthesis).apply (.digit '3')).expression =
          (e.apply .parenthesis).expression ++ ['3'] ↔
        ¬Since Finishes Proceeds (initial ({} : Config).evaluator) typed) ∧
      (Since Finishes Proceeds (initial ({} : Config).evaluator) typed →
        ((e.apply .parenthesis).apply (.digit '3')).expression = ['3']) :=
  ⟨by decide, digit_after_parenthesis_iff _ _ (.inr (.inr rfl)) (by decide)⟩

theorem exists_parenthesis_lost :
    let e := (initial ({} : Config).evaluator).run
      [.digit '1', .operator .divide, .digit '0', .equals]
    ((e.apply .openGroup).apply (.digit '4')).expression ≠
      (e.apply .openGroup).expression ++ ['4'] := by
  decide +kernel

end Engine

end DeskCalculator
