import DeskCalculator.Proofs.Expression.Collapse
import DeskCalculator.Proofs.Expression.ReadText
import Mathlib.Data.List.Chain
/-!
Percent signs as divisions by a hundred. The hundred is put into the text before it is read, where a
digit or point after the percent sign goes on with it; a blank after the hundred keeps the two
apart. With the blanks a text is a sentence exactly if it is one without them and no hundred is
continued, and then both have the same tree.
-/
namespace DeskCalculator.Expression

open Expression.Tree (supply step readFrom advance operandStep operatorStep)

def replacePercent (block t : Text) : Text := t.flatMap fun c => if c = '%' then block else [c]

def spacePercent (t : Text) : Text := replacePercent ['/', '1', '0', '0', ' '] t

def PercentsEnd (t : Text) : Prop := t.IsChain fun c d => c = '%' → isNumeric d = false

instance (t : Text) : Decidable (PercentsEnd t) := inferInstanceAs (Decidable (List.IsChain _ t))

theorem expandPercent_eq (t : Text) : expandPercent t = replacePercent ['/', '1', '0', '0'] t := rfl

@[simp] theorem replacePercent_nil (block : Text) : replacePercent block [] = [] := rfl

@[simp] theorem replacePercent_percent (block t : Text) :
    replacePercent block ('%' :: t) = block ++ replacePercent block t := rfl

theorem replacePercent_cons {c : Char} (other : c ≠ '%') (block t : Text) :
    replacePercent block (c :: t) = c :: replacePercent block t := by
  rw [replacePercent, List.flatMap_cons, if_neg other]
  rfl

theorem replacePercent_append (block s t : Text) :
    replacePercent block (s ++ t) = replacePercent block s ++ replacePercent block t :=
  List.flatMap_append

theorem percentsEnd_cons (c : Char) (t : Text) :
    PercentsEnd (c :: t) ↔ (c = '%' → Stops t) ∧ PercentsEnd t := by
  unfold PercentsEnd Stops
  rw [List.isChain_cons]
  exact and_congr_left fun _ => ⟨fun h p d m => h d m p, fun h d m p => h p d m⟩

theorem exists_continued {t : Text} (continued : ¬PercentsEnd t) :
    ∃ a c b, t = a ++ '%' :: c :: b ∧ isNumeric c = true := by
  induction t with
  | nil => exact absurd List.isChain_nil continued
  | cons d t ih =>
    by_cases later : PercentsEnd t
    · have here : ¬(d = '%' → Stops t) := fun here =>
        continued ((percentsEnd_cons d t).2 ⟨here, later⟩)
      obtain ⟨rfl, goes⟩ := Classical.not_imp.1 here
      cases t with
      | nil => exact absurd stops_nil goes
      | cons c b =>
        have numeric : isNumeric c = true := by
          rw [← Bool.not_eq_false]
          exact fun other => goes (stops_cons other)
        exact ⟨[], c, b, rfl, numeric⟩
    · obtain ⟨a, c, b, rfl, numeric⟩ := ih later
      exact ⟨d :: a, c, b, rfl, numeric⟩

/-! ## Signs collapse around percent signs -/

theorem sign_ne_percent (minus : Bool) : sign minus ≠ '%' := by
  cases minus <;> decide

theorem isNumeric_sign (minus : Bool) : isNumeric (sign minus) = false := by
  cases minus <;> rfl

theorem collapsePair_cons {a b c d : Char} {t : Text} (apart : ¬(d = a ∧ t.head? = some b)) :
    collapsePair a b c (d :: t) = d :: collapsePair a b c t := by
  cases t with
  | nil => rfl
  | cons e t =>
    rw [collapsePair, if_neg]
    rintro ⟨first, rfl⟩
    exact apart ⟨first, rfl⟩

theorem collapsePair_append {a b c : Char} {s : Text} (unsigned : a ∉ s) (t : Text) :
    collapsePair a b c (s ++ t) = s ++ collapsePair a b c t := by
  induction s with
  | nil => rfl
  | cons d s ih =>
    rw [List.mem_cons, not_or] at unsigned
    rw [List.cons_append, collapsePair_cons (fun pair => unsigned.1 pair.1.symm), ih unsigned.2,
      List.cons_append]

theorem head?_replacePercent {block : Text} {c : Char} (nonempty : block ≠ []) (absent : c ∉ block)
    (other : c ≠ '%') (t : Text) :
    (replacePercent block t).head? = some c ↔ t.head? = some c := by
  cases t with
  | nil => rfl
  | cons d t =>
    by_cases percent : d = '%'
    · subst percent
      obtain ⟨x, rest, rfl⟩ := List.exists_cons_of_ne_nil nonempty
      have first : x ≠ c := fun same => absent (same ▸ List.mem_cons_self)
      simp [first, other.symm]
    · simp [replacePercent_cons percent]

theorem collapsePair_replacePercent {block : Text} (nonempty : block ≠ [])
    (unsigned : ∀ minus, sign minus ∉ block) (first second : Bool) (t : Text) :
    collapsePair (sign first) (sign second) (sign (first != second)) (replacePercent block t) =
      replacePercent block
        (collapsePair (sign first) (sign second) (sign (first != second)) t) := by
  fun_induction collapsePair (sign first) (sign second) (sign (first != second)) t with
  | case1 _ _ rest same ih =>
    obtain ⟨rfl, rfl⟩ := same
    rw [replacePercent_cons (sign_ne_percent first), replacePercent_cons (sign_ne_percent second),
      replacePercent_cons (sign_ne_percent _), collapsePair, if_pos ⟨rfl, rfl⟩, ih]
  | case2 d e rest apart ih =>
    by_cases percent : d = '%'
    · subst percent
      rw [replacePercent_percent, replacePercent_percent, collapsePair_append (unsigned first), ih]
    · rw [replacePercent_cons percent, replacePercent_cons percent, collapsePair_cons, ih]
      rw [head?_replacePercent nonempty (unsigned second) (sign_ne_percent second)]
      rintro ⟨same, next⟩
      exact apart ⟨same, Option.some.inj next⟩
  | case3 t short =>
    cases t with
    | nil => rfl
    | cons d rest =>
      cases rest with
      | cons e rest => exact absurd rfl (short d e rest)
      | nil =>
        by_cases percent : d = '%'
        · subst percent
          rw [replacePercent_percent, replacePercent_nil, collapsePair_append (unsigned first)]
          rfl
        · rw [replacePercent_cons percent, replacePercent_nil]
          rfl

theorem collapseSigns_replacePercent {block : Text} (nonempty : block ≠ [])
    (unsigned : ∀ minus, sign minus ∉ block) (t : Text) :
    collapseSigns (replacePercent block t) = replacePercent block (collapseSigns t) := by
  have pass := collapsePair_replacePercent nonempty unsigned
  have minusMinus := pass true true t
  have plusMinus := pass false true (collapsePair '-' '-' '+' t)
  have minusPlus := pass true false (collapsePair '+' '-' '-' (collapsePair '-' '-' '+' t))
  have plusPlus := pass false false
    (collapsePair '-' '+' '-' (collapsePair '+' '-' '-' (collapsePair '-' '-' '+' t)))
  simp only [sign, bne_self_eq_false, Bool.bne_true, Bool.bne_false, Bool.not_false,
    if_true, Bool.false_eq_true, if_false] at minusMinus plusMinus minusPlus plusPlus
  unfold collapseSigns
  rw [minusMinus, plusMinus, minusPlus, plusPlus]

theorem stops_collapsePair (first second : Bool) (t : Text) :
    Stops (collapsePair (sign first) (sign second) (sign (first != second)) t) ↔ Stops t := by
  fun_cases collapsePair (sign first) (sign second) (sign (first != second)) t with
  | case1 _ _ rest same =>
    obtain ⟨rfl, rfl⟩ := same
    exact iff_of_true (stops_cons (isNumeric_sign _)) (stops_cons (isNumeric_sign _))
  | case2 => rfl
  | case3 => rfl

theorem percentsEnd_collapsePair (first second : Bool) (t : Text) :
    PercentsEnd (collapsePair (sign first) (sign second) (sign (first != second)) t) ↔
      PercentsEnd t := by
  fun_induction collapsePair (sign first) (sign second) (sign (first != second)) t with
  | case1 _ _ rest same ih =>
    obtain ⟨rfl, rfl⟩ := same
    simp only [percentsEnd_cons, sign_ne_percent, ih, false_imp_iff, true_and]
  | case2 d e rest apart ih => rw [percentsEnd_cons, percentsEnd_cons, ih, stops_collapsePair]
  | case3 => rfl

theorem percentsEnd_collapseSigns (t : Text) : PercentsEnd (collapseSigns t) ↔ PercentsEnd t := by
  have minusMinus := percentsEnd_collapsePair true true t
  have plusMinus := percentsEnd_collapsePair false true (collapsePair '-' '-' '+' t)
  have minusPlus := percentsEnd_collapsePair true false
    (collapsePair '+' '-' '-' (collapsePair '-' '-' '+' t))
  have plusPlus := percentsEnd_collapsePair false false
    (collapsePair '-' '+' '-' (collapsePair '+' '-' '-' (collapsePair '-' '-' '+' t)))
  exact ((plusPlus.trans minusPlus).trans plusMinus).trans minusMinus

theorem normalize_eq_expandPercent (t : Text) : normalize t = expandPercent (collapseSigns t) := by
  rw [normalize, expandPercent_eq, expandPercent_eq]
  exact collapseSigns_replacePercent (by decide) (by decide) t

theorem expandPercent_spacePercent (t : Text) :
    expandPercent (spacePercent t) = spacePercent t := by
  induction t with
  | nil => rfl
  | cons c t ih =>
    by_cases percent : c = '%'
    · subst percent
      rw [spacePercent, replacePercent_percent] at *
      rw [expandPercent_eq, replacePercent_append, ← expandPercent_eq, ← expandPercent_eq, ih]
      rfl
    · rw [spacePercent, replacePercent_cons percent] at *
      rw [expandPercent_eq, replacePercent_cons percent, ← expandPercent_eq, ih]

theorem normalize_spacePercent (t : Text) :
    normalize (spacePercent t) = spacePercent (collapseSigns t) := by
  rw [normalize, expandPercent_spacePercent]
  exact collapseSigns_replacePercent (by decide) (by decide) t

/-! ## Reading -/

theorem number_of_hundred {r next : Reading Tree}
    (led : advance r ['/', '1', '0', '0'] = some next) :
    ∃ enclosing pending, next = ⟨enclosing, .number pending ['1', '0', '0']⟩ := by
  obtain ⟨divided, moved, led⟩ := Option.bind_eq_some_iff.1 led
  suffices operand : ∃ enclosing pending, divided = ⟨enclosing, .operand pending⟩ by
    obtain ⟨enclosing, pending, rfl⟩ := operand
    exact ⟨enclosing, pending, (Option.some.inj led).symm⟩
  obtain ⟨enclosing, phase⟩ := r
  cases phase with
  | operand pending => cases moved
  | operator terms =>
    cases Tree.OperatorStep.of_eq moved
    exact ⟨_, _, rfl⟩
  | number pending literal =>
    have other : isNumeric '/' = false := rfl
    simp only [step, if_neg (not_continues other literal)] at moved
    obtain ⟨terms, _, moved⟩ := Option.bind_eq_some_iff.1 moved
    cases Tree.OperatorStep.of_eq moved
    exact ⟨_, _, rfl⟩

theorem readFrom_blank (enclosing : List (Pending Tree)) (pending : Pending Tree) (t : Text) :
    readFrom ⟨enclosing, .number pending ['1', '0', '0']⟩ (' ' :: t) =
      readFrom ⟨enclosing, .operator (supply pending (.number ['1', '0', '0']))⟩ t :=
  Tree.readFrom_step (by rfl) t

theorem stops_expandPercent {t : Text} (stops : Stops t) : Stops (expandPercent t) := by
  cases t with
  | nil => exact stops_nil
  | cons c t =>
    by_cases percent : c = '%'
    · subst percent
      exact stops_cons rfl
    · rw [expandPercent_eq, replacePercent_cons percent]
      exact stops_cons (stops c rfl)

theorem readFrom_spacePercent {t : Text} (ends : PercentsEnd t) (r : Reading Tree) :
    readFrom r (spacePercent t) = readFrom r (expandPercent t) := by
  induction t generalizing r with
  | nil => rfl
  | cons c t ih =>
    obtain ⟨stops, later⟩ := (percentsEnd_cons c t).1 ends
    by_cases percent : c = '%'
    · subst percent
      have spaced : spacePercent ('%' :: t) = ['/', '1', '0', '0'] ++ ' ' :: spacePercent t := rfl
      have expanded : expandPercent ('%' :: t) = ['/', '1', '0', '0'] ++ expandPercent t := rfl
      rw [spaced, expanded, Tree.readFrom_append, Tree.readFrom_append]
      cases led : advance r ['/', '1', '0', '0'] with
      | none => rfl
      | some next =>
        obtain ⟨enclosing, pending, rfl⟩ := number_of_hundred led
        have apart : Stops (expandPercent t) := stops_expandPercent (stops rfl)
        rw [Option.bind_some, Option.bind_some, readFrom_blank, ih later,
          readFrom_number (by decide) apart]
    · rw [spacePercent, replacePercent_cons percent, expandPercent_eq,
        replacePercent_cons percent, Tree.readFrom_cons, Tree.readFrom_cons]
      exact congrArg _ (funext fun next => ih later next)

theorem readFrom_continued {c : Char} (numeric : isNumeric c = true) (a b : Text)
    (r : Reading Tree) : readFrom r (spacePercent (a ++ '%' :: c :: b)) = none := by
  -- After the blank neither a digit nor a point can stand.
  have other : c ≠ '%' := by
    rintro rfl
    cases numeric
  have shape : spacePercent (a ++ '%' :: c :: b) =
      spacePercent a ++ (['/', '1', '0', '0'] ++ ' ' :: c :: spacePercent b) := by
    simp only [spacePercent, replacePercent_append, replacePercent_percent,
      replacePercent_cons other, List.cons_append, List.nil_append]
  rw [shape, Tree.readFrom_append]
  refine Option.bind_eq_none_iff.2 fun before _ => ?_
  rw [Tree.readFrom_append]
  refine Option.bind_eq_none_iff.2 fun next led => ?_
  obtain ⟨enclosing, pending, rfl⟩ := number_of_hundred led
  rw [readFrom_blank, Tree.readFrom_cons]
  refine Option.bind_eq_none_iff.2 fun later moved => ?_
  cases Tree.OperatorStep.of_eq moved <;> cases numeric

theorem derives_spacePercent_iff (t : Text) (e : Tree) :
    Derives .sum (spacePercent t) e ↔ Derives .sum (expandPercent t) e ∧ PercentsEnd t := by
  rw [derives_iff_ofText?, derives_iff_ofText?]
  by_cases ends : PercentsEnd t
  · rw [and_iff_left ends]
    exact iff_of_eq (congrArg (· = some e) (readFrom_spacePercent ends .start))
  · obtain ⟨a, c, b, rfl, numeric⟩ := exists_continued ends
    have refused := readFrom_continued numeric a b .start
    exact iff_of_false (fun read => Option.some_ne_none e (read.symm.trans refused))
      fun both => ends both.2

end DeskCalculator.Expression
