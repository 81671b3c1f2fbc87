import DeskCalculator.Terminal.Session
/-!
What a display remembers when its output fails. A journal of the output tells what each drawing
wrote and which faults it met. The text that counts as shown is that of the latest rendering,
whatever faults there were, so that drawing it again writes what the rendering was to write.
-/
namespace DeskCalculator.Terminal

variable {σ ε : Type} [Sink σ ε]

/-! ## Journals -/

inductive Event (ε : Type) where
  | write (t : Text) (fault? : Option ε)
  | flush (fault? : Option ε)

namespace Event

def fault? : Event ε → Option ε
  | write _ fault? => fault?
  | flush fault? => fault?

def writeFault? : Event ε → Option ε
  | write _ fault? => fault?
  | flush _ => none

def written : Event ε → Text
  | write t none => t
  | _ => []

theorem writeFault?_of_fault? (event : Event ε) (faultless : event.fault? = none) :
    event.writeFault? = none := by
  cases event with
  | write t fault? => exact faultless
  | flush fault? => rfl

end Event

structure Journal (σ ε : Type) where
  sink : σ
  events : List (Event ε)

instance : Sink (Journal σ ε) ε where
  write j t :=
    let done := Sink.write j.sink t
    (⟨done.1, j.events ++ [.write t done.2]⟩, done.2)
  flush j :=
    let done := Sink.flush j.sink
    (⟨done.1, j.events ++ [.flush done.2]⟩, done.2)

/-- All that drawing some texts can come to: every write goes well and a flush follows, or a write
meets a fault and ends it. -/
inductive IsDrawing : List Text → List (Event ε) → Option ε → Prop where
  | flushed (fault? : Option ε) : IsDrawing [] [.flush fault?] fault?
  | wrote (t : Text) {texts : List Text} {events : List (Event ε)} {fault? : Option ε}
      (rest : IsDrawing texts events fault?) :
      IsDrawing (t :: texts) (.write t none :: events) fault?
  | failed (t : Text) (texts : List Text) (fault : ε) :
      IsDrawing (t :: texts) [.write t (some fault)] (some fault)

namespace IsDrawing

variable {texts : List Text} {events : List (Event ε)} {fault? : Option ε}

theorem fault_iff (drawing : IsDrawing texts events fault?) (fault : ε) :
    fault? = some fault ↔ ∃ event ∈ events, event.fault? = some fault := by
  induction drawing with
  | flushed fault? => simp [Event.fault?]
  | wrote t rest ih => rw [ih]; simp [Event.fault?]
  | failed t texts fault' => simp [Event.fault?]

theorem written_eq (drawing : IsDrawing texts events fault?)
    (clear : ∀ event ∈ events, event.writeFault? = none) :
    events.flatMap Event.written = texts.flatten := by
  induction drawing with
  | flushed => rfl
  | wrote t rest ih =>
    rw [List.flatMap_cons, List.flatten_cons, ih (List.forall_mem_cons.1 clear).2]
    rfl
  | failed t texts fault => cases clear _ List.mem_cons_self

theorem written_prefix (drawing : IsDrawing texts events fault?) :
    events.flatMap Event.written <+: texts.flatten := by
  induction drawing with
  | flushed => exact List.nil_prefix
  | wrote t rest ih =>
    rw [List.flatMap_cons, List.flatten_cons]
    exact (List.prefix_append_right_inj t).2 ih
  | failed t texts fault => exact List.nil_prefix

end IsDrawing

theorem draw_journal (j : Journal σ ε) (texts : List Text) :
    (draw j texts).1.sink = (draw j.sink texts).1 ∧ (draw j texts).2 = (draw j.sink texts).2 := by
  induction texts generalizing j with
  | nil => exact ⟨rfl, rfl⟩
  | cons t texts ih =>
    rcases done : Sink.write j.sink t with ⟨sink, fault?⟩
    have noted : Sink.write j t = (⟨sink, j.events ++ [.write t fault?]⟩, fault?) := by
      simp only [Sink.write, done]
    unfold draw
    rw [noted, done]
    cases fault? with
    | none => exact ih _
    | some fault => exact ⟨rfl, rfl⟩

theorem exists_isDrawing (j : Journal σ ε) (texts : List Text) :
    ∃ events, (draw j texts).1.events = j.events ++ events ∧
      IsDrawing texts events (draw j texts).2 := by
  induction texts generalizing j with
  | nil => exact ⟨_, rfl, .flushed _⟩
  | cons t texts ih =>
    rcases done : Sink.write j.sink t with ⟨sink, fault?⟩
    have noted : Sink.write j t = (⟨sink, j.events ++ [.write t fault?]⟩, fault?) := by
      simp only [Sink.write, done]
    unfold draw
    rw [noted]
    cases fault? with
    | none =>
      obtain ⟨events, later, drawing⟩ := ih ⟨sink, j.events ++ [.write t none]⟩
      refine ⟨.write t none :: events, ?_, .wrote t drawing⟩
      dsimp only
      rw [later, List.append_assoc]
      rfl
    | some fault => exact ⟨_, rfl, .failed t texts fault⟩

theorem isDrawing_draw (sink : σ) (texts : List Text) :
    IsDrawing texts (draw (⟨sink, []⟩ : Journal σ ε) texts).1.events (draw sink texts).2 := by
  have same := (draw_journal (⟨sink, []⟩ : Journal σ ε) texts).2
  obtain ⟨events, noted, drawing⟩ := exists_isDrawing (⟨sink, []⟩ : Journal σ ε) texts
  rw [noted, ← same]
  exact drawing

/-! ## Calls of a display -/

inductive Call where
  | render (t : Text)
  | redraw

def Call.text? : Call → Option Text
  | render t => some t
  | redraw => none

def latestText (calls : List Call) : Text := (calls.filterMap Call.text?).getLastD []

namespace Screen

def call (s : Screen σ) : Call → Screen σ
  | .render t => s.render t
  | .redraw => s.redraw.1

def run (s : Screen σ) (calls : List Call) : Screen σ := calls.foldl call s

theorem last_call (s : Screen σ) (c : Call) : (s.call c).last = c.text?.getD s.last := by
  cases c with
  | render t => rfl
  | redraw => rfl

theorem errorMarker_call (s : Screen σ) (c : Call) : (s.call c).errorMarker = s.errorMarker := by
  cases c with
  | render t => rfl
  | redraw => rfl

theorem last_run (s : Screen σ) (calls : List Call) :
    (s.run calls).last = (calls.filterMap Call.text?).getLastD s.last := by
  induction calls generalizing s with
  | nil => rfl
  | cons c calls ih =>
    have later : (s.run (c :: calls)).last = _ := ih (s.call c)
    rw [later, last_call]
    cases c with
    | render t =>
      have first : (Call.render t :: calls).filterMap Call.text? =
        t :: calls.filterMap Call.text? := rfl
      rw [first, List.getLastD_cons]
      rfl
    | redraw => rfl

theorem errorMarker_run (s : Screen σ) (calls : List Call) :
    (s.run calls).errorMarker = s.errorMarker := by
  induction calls generalizing s with
  | nil => rfl
  | cons c calls ih => exact (ih (s.call c)).trans (s.errorMarker_call c)

/-! ## What redrawing writes -/

def watched (s : Screen σ) : Screen (Journal σ ε) := ⟨⟨s.sink, []⟩, s.errorMarker, s.last⟩

def redrawEvents (s : Screen σ) : List (Event ε) := s.watched.redraw.1.sink.events

def renderEvents (s : Screen σ) (t : Text) : List (Event ε) := (s.watched.render t).sink.events

theorem sink_redraw_watched (s : Screen σ) :
    (watched s : Screen (Journal σ ε)).redraw.1.sink.sink = s.redraw.1.sink :=
  (draw_journal (⟨s.sink, []⟩ : Journal σ ε) (frame s.errorMarker s.last)).1

theorem isDrawing_redraw (s : Screen σ) :
    IsDrawing (frame s.errorMarker s.last) s.redrawEvents s.redraw.2 := isDrawing_draw s.sink _

theorem isDrawing_render (s : Screen σ) (t : Text) :
    IsDrawing (frame s.errorMarker t) (s.renderEvents t) (s.draw t).2 := isDrawing_draw s.sink _

/-- Whatever faults an output has had, the text remembered is that of the latest rendering. Drawing
it again ends with a fault exactly if a write of the drawing, or its flush, meets that fault; and if
no write does, it has written what every rendering of the text writes that meets no fault. -/
theorem redraw_run (sink : σ) (errorMarker : Text) (calls : List Call) :
    let s := (blank sink errorMarker).run calls
    s.last = latestText calls ∧
      (watched s : Screen (Journal σ ε)).redraw.1.sink.sink = s.redraw.1.sink ∧
      (∀ fault, s.redraw.2 = some fault ↔ ∃ event ∈ s.redrawEvents, event.fault? = some fault) ∧
      ((∀ event ∈ s.redrawEvents, event.writeFault? = none) →
        s.redrawEvents.flatMap Event.written = (frame errorMarker (latestText calls)).flatten ∧
          ∀ (τ δ : Type) [Sink τ δ] (other : Screen τ), other.errorMarker = errorMarker →
            (∀ event ∈ other.renderEvents (latestText calls), event.fault? = none) →
              s.redrawEvents.flatMap Event.written =
                (other.renderEvents (latestText calls)).flatMap Event.written) := by
  intro s
  have shown : s.last = latestText calls := last_run (blank sink errorMarker) calls
  have marker : s.errorMarker = errorMarker := errorMarker_run (blank sink errorMarker) calls
  have drawing := isDrawing_redraw s
  refine ⟨shown, sink_redraw_watched s, drawing.fault_iff, ?_⟩
  intro clear
  have written := drawing.written_eq clear
  rw [marker, shown] at written
  refine ⟨written, ?_⟩
  intro τ δ _ other same faultless
  have rendered := isDrawing_render other (latestText calls)
  have clean : ∀ event ∈ other.renderEvents (latestText calls), event.writeFault? = none := by
    intro event member
    exact event.writeFault?_of_fault? (faultless event member)
  rw [written, rendered.written_eq clean, same]

structure Planned where
  tasks : List Bool

instance : Sink Planned Fault where
  write p _ := (⟨p.tasks.tail⟩, if p.tasks.head? = some false then some .brokenSink else none)
  flush p := (⟨p.tasks.tail⟩, if p.tasks.head? = some false then some .brokenSink else none)

theorem redraw_run_planned :
    let marker := "Error".toList
    let calls : List Call := [.render "12".toList, .redraw]
    let s := (blank (⟨[true, true, true, true, true, false, false]⟩ : Planned) marker).run calls
    let other := blank Memory.empty marker
    s.last = "12".toList ∧
      (∀ event ∈ s.redrawEvents, event.writeFault? = none) ∧
      (∀ event ∈ other.renderEvents "12".toList, event.fault? = none) ∧
      s.redrawEvents.flatMap Event.written =
        (other.renderEvents "12".toList).flatMap Event.written := by
  intro marker calls s other
  have clear : ∀ event ∈ s.redrawEvents, event.writeFault? = none := by decide
  have faultless : ∀ event ∈ other.renderEvents "12".toList, event.fault? = none := by decide
  obtain ⟨shown, _, _, again⟩ :=
    redraw_run (⟨[true, true, true, true, true, false, false]⟩ : Planned) marker calls
  exact ⟨shown, clear, faultless, (again clear).2 Memory Fault other rfl faultless⟩

end Screen

end DeskCalculator.Terminal
