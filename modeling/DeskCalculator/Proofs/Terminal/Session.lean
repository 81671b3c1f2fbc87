import DeskCalculator.Config
import DeskCalculator.Terminal.Session
import Mathlib.Data.List.Basic
/-!
Which key events count in a session: the panel is fed the inputs of the events before the first that
quits, so events without an input may be left out. Releases have none, nor has a key with Control or
Alt; but a key with another modifier has the input that it has without.
-/
namespace DeskCalculator

namespace KeyEvent

def isStray (k : KeyEvent) : Bool :=
  k.kind == .release || !{ k.modifiers with shift := false }.isEmpty

def isMuted (k : KeyEvent) : Bool :=
  k.kind == .release || k.modifiers.control || k.modifiers.alt

theorem input?_eq (k : KeyEvent) : k.input? = if k.isMuted then none else k.code.input? := by
  have same : k.isMuted = true ↔
      k.kind = .release ∨ k.modifiers.control = true ∨ k.modifiers.alt = true := by
    simp [isMuted, or_assoc]
  simp only [input?, same]

theorem input?_of_isMuted {k : KeyEvent} (muted : k.isMuted = true) : k.input? = none := by
  rw [input?_eq, if_pos muted]

theorem isMuted_eq_false (k : KeyEvent) :
    k.isMuted = false ↔
      k.kind ≠ .release ∧ k.modifiers.control = false ∧ k.modifiers.alt = false := by
  simp [isMuted, and_assoc]

theorem isStray_iff (k : KeyEvent) :
    k.isStray = true ↔ k.isMuted = true ∨
      (k.modifiers.super = true ∨ k.modifiers.hyper = true ∨ k.modifiers.metaKey = true) := by
  simp only [isStray, isMuted, Modifiers.isEmpty, Bool.not_not, Bool.false_or, Bool.or_eq_true]
  simp only [or_assoc]

theorem input?_of_isQuit {k : KeyEvent} (quits : k.isQuit = true) : k.input? = none := by
  rw [isQuit, Bool.and_eq_true, Bool.or_eq_true, Bool.and_eq_true, Bool.and_eq_true] at quits
  rw [input?_eq]
  rcases quits.2 with ⟨letter, _⟩ | ⟨_, control⟩
  · rw [beq_iff_eq.1 letter]
    split
    · rfl
    · rfl
  · have muted : k.isMuted = true := by simp [isMuted, control]
    rw [if_pos muted]

end KeyEvent

namespace Terminal

variable {δ : Type} [Display δ]

def inputsOf (keys : List KeyEvent) : List Input :=
  (keys.takeWhile (!·.isQuit)).filterMap KeyEvent.input?

theorem session_eq_feedAll (w : Panel δ) (keys : List KeyEvent) :
    session w keys = w.feedAll (inputsOf keys) := by
  induction keys generalizing w with
  | nil => rfl
  | cons k rest ih =>
    unfold session inputsOf
    by_cases quits : k.isQuit = true
    · rw [if_pos quits, List.takeWhile_cons_of_neg (by simp [quits])]
      rfl
    · rw [if_neg quits, List.takeWhile_cons_of_pos (by simp [quits]), List.filterMap_cons, ih]
      unfold press
      cases k.input? with
      | none => rfl
      | some input => rfl

theorem length_frames_feedAll (w : Panel Recording) (inputs : List Input) :
    (w.feedAll inputs).display.frames.length = w.display.frames.length + inputs.length := by
  induction inputs generalizing w with
  | nil => rfl
  | cons input rest ih =>
    have shown : (w.feed input).display.frames.length = w.display.frames.length + 1 :=
      List.length_append
    have later : (w.feedAll (input :: rest)).display.frames.length = _ := ih (w.feed input)
    rw [later, shown, List.length_cons]
    omega

def without (ignored : KeyEvent → Bool) (keys : List KeyEvent) : List KeyEvent :=
  keys.filter fun k => k.isQuit || !ignored k

theorem takeWhile_without (ignored : KeyEvent → Bool) (keys : List KeyEvent) :
    (without ignored keys).takeWhile (!·.isQuit) =
      (keys.takeWhile (!·.isQuit)).filter (!ignored ·) := by
  unfold without
  induction keys with
  | nil => rfl
  | cons k rest ih =>
    by_cases quits : k.isQuit = true
    · rw [List.filter_cons_of_pos (by simp [quits]), List.takeWhile_cons_of_neg (by simp [quits]),
        List.takeWhile_cons_of_neg (by simp [quits]), List.filter_nil]
    · rw [List.takeWhile_cons_of_pos (by simp [quits])]
      by_cases drop : ignored k = true
      · rw [List.filter_cons_of_neg (by simp [quits, drop]),
          List.filter_cons_of_neg (by simp [drop]), ih]
      · rw [List.filter_cons_of_pos (by simp [drop]), List.takeWhile_cons_of_pos (by simp [quits]),
          List.filter_cons_of_pos (by simp [drop]), ih]

theorem session_without (w : Panel δ) {ignored : KeyEvent → Bool} {keys : List KeyEvent}
    (idle : ∀ k ∈ keys.takeWhile (!·.isQuit), ignored k = true → k.input? = none) :
    session w (without ignored keys) = session w keys := by
  have same : inputsOf (without ignored keys) = inputsOf keys := by
    unfold inputsOf
    rw [takeWhile_without, List.filterMap_filter]
    apply List.filterMap_congr
    intro k member
    by_cases drop : ignored k = true
    · rw [idle k member drop, ite_self]
    · rw [if_pos (by simp [drop])]
  rw [session_eq_feedAll, session_eq_feedAll, same]

theorem idle_of_session_without {w : Panel Recording} {ignored : KeyEvent → Bool}
    {keys : List KeyEvent} (same : session w (without ignored keys) = session w keys) :
    ∀ k ∈ keys.takeWhile (!·.isQuit), ignored k = true → k.input? = none := by
  have inputs : (inputsOf (without ignored keys)).length = (inputsOf keys).length := by
    have frames := congrArg (·.display.frames.length) same
    simp only [session_eq_feedAll, length_frames_feedAll] at frames
    exact Nat.add_left_cancel frames
  simp only [inputsOf, takeWhile_without, List.length_filterMap_eq_countP,
    List.countP_eq_length_filter] at inputs
  rw [List.filter_comm, List.length_filter_eq_length_iff] at inputs
  intro k member drop
  by_contra bound
  have kept := inputs k (List.mem_filter.2 ⟨member, Option.isSome_iff_ne_none.2 bound⟩)
  rw [drop] at kept
  cases kept

/-- No event both quits and has an input, and releases and keys with Control or Alt may be left out
of every session. All releases and keys with a modifier but Shift may be left out exactly if no key
before the first that quits has an input while Super, Hyper or Meta is held without Control and
Alt. -/
theorem session_without_isStray_iff (keys : List KeyEvent) :
    (∀ k : KeyEvent, k.isQuit = true → k.input? = none) ∧
      (∀ (δ : Type) [Display δ] (w : Panel δ),
        session w (without KeyEvent.isMuted keys) = session w keys) ∧
      ∀ w : Panel Recording, session w (without KeyEvent.isStray keys) = session w keys ↔
        ∀ k ∈ keys.takeWhile (!·.isQuit),
          k.kind ≠ .release → k.modifiers.control = false → k.modifiers.alt = false →
            k.modifiers.super = true ∨ k.modifiers.hyper = true ∨ k.modifiers.metaKey = true →
              k.code.input? = none := by
  refine ⟨fun k quits => KeyEvent.input?_of_isQuit quits, ?_, ?_⟩
  · intro δ _ w
    exact session_without w fun k _ muted => KeyEvent.input?_of_isMuted muted
  intro w
  constructor
  · intro same k member held control alt modified
    have loud : k.isMuted = false := k.isMuted_eq_false.2 ⟨held, control, alt⟩
    have stray : k.isStray = true := k.isStray_iff.2 (.inr modified)
    have idle := idle_of_session_without same k member stray
    rw [k.input?_eq, loud] at idle
    exact idle
  · intro idle
    apply session_without
    intro k member stray
    rw [k.input?_eq]
    by_cases muted : k.isMuted = true
    · rw [if_pos muted]
    · rw [if_neg muted]
      obtain ⟨held, control, alt⟩ := k.isMuted_eq_false.1 (Bool.eq_false_iff.2 muted)
      exact idle k member held control alt ((k.isStray_iff.1 stray).resolve_left muted)

theorem exists_stray_input :
    let keys : List KeyEvent := [{ code := .char '1', modifiers := { super := true } }]
    let w : Panel Recording := Panel.attach (Engine.initial ({} : Config).evaluator) ⟨[]⟩
    session w (without KeyEvent.isStray keys) ≠ session w keys := by
  intro keys w same
  have frames := congrArg (·.display.frames) same
  exact absurd frames (by decide)

end Terminal

end DeskCalculator
