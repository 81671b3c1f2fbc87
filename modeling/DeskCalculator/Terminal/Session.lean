import DeskCalculator.Terminal.Frame
import DeskCalculator.Panel
/-!
A session at the terminal. The display is a screen on an output that may fail: the text last shown
is remembered, whatever became of its drawing, so that it can be drawn again. Key events go to the
panel until one of them quits.
-/
namespace DeskCalculator.Terminal

/-- An output of texts. Each write, and the flush after the last, may meet a fault. -/
class Sink (σ : Type) (ε : outParam Type) where
  write : σ → Text → σ × Option ε
  flush : σ → σ × Option ε

variable {σ ε : Type} [Sink σ ε]

def draw (sink : σ) : List Text → σ × Option ε
  | [] => Sink.flush sink
  | t :: rest =>
    match Sink.write sink t with
    | (sink, none) => draw sink rest
    | (sink, some fault) => (sink, some fault)

structure Screen (σ : Type) where
  sink : σ
  errorMarker : Text
  last : Text

namespace Screen

def blank (sink : σ) (errorMarker : Text) : Screen σ := ⟨sink, errorMarker, []⟩

def draw (s : Screen σ) (text : Text) : Screen σ × Option ε :=
  let drawn := Terminal.draw s.sink (frame s.errorMarker text)
  ({ s with sink := drawn.1 }, drawn.2)

/-- Draws the text last shown once more. The text is taken out while it is drawn and put back
afterwards, also after a fault. -/
def redraw (s : Screen σ) : Screen σ × Option ε :=
  let drawn := draw { s with last := [] } s.last
  ({ drawn.1 with last := s.last }, drawn.2)

def render (s : Screen σ) (text : Text) : Screen σ := { (s.draw text).1 with last := text }

instance : Display (Screen σ) where
  render := render

end Screen

structure Memory where
  written : Text
  broken : Bool
  deriving DecidableEq

inductive Fault where
  | brokenSink
  deriving DecidableEq

def Fault.message : Fault → Text
  | .brokenSink => "broken sink".toList

namespace Memory

def empty : Memory := ⟨[], false⟩

instance : Sink Memory Fault where
  write m t :=
    if m.broken then (m, some .brokenSink) else ({ m with written := m.written ++ t }, none)
  flush m := (m, if m.broken then some .brokenSink else none)

end Memory

variable {δ : Type} [Display δ]

def press (w : Panel δ) (k : KeyEvent) : Panel δ :=
  match k.input? with
  | some input => w.feed input
  | none => w

def session (w : Panel δ) : List KeyEvent → Panel δ
  | [] => w
  | k :: rest => if k.isQuit then w else session (press w k) rest

def enter : Text := control "?1049h".toList ++ control "?25l".toList

def leave : Text := control "?25h".toList ++ control "?1049l".toList

def transcript (engine : Engine) (keys : List KeyEvent) : Text :=
  let screen := Screen.blank Memory.empty engine.evaluator.errorMarker
  enter ++ (session (Panel.attach engine screen) keys).display.sink.written ++ leave

end DeskCalculator.Terminal
