import DeskCalculator.Input
/-!
The calculator panel: an engine and a display that is shown the readout at the start and after
every input.
-/
namespace DeskCalculator

class Display (δ : Type) where
  render : δ → Text → δ

structure Recording where
  frames : List Text
  deriving DecidableEq

instance : Display Recording where
  render r text := ⟨r.frames ++ [text]⟩

def Recording.current? (r : Recording) : Option Text := r.frames.getLast?

structure Panel (δ : Type) where
  engine : Engine
  display : δ

namespace Panel

variable {δ : Type} [Display δ]

def attach (engine : Engine) (display : δ) : Panel δ :=
  ⟨engine, Display.render display engine.readout⟩

def feed (p : Panel δ) (input : Input) : Panel δ :=
  let engine := p.engine.apply input.operation
  ⟨engine, Display.render p.display engine.readout⟩

def feedAll (p : Panel δ) (inputs : List Input) : Panel δ := inputs.foldl feed p

end Panel

end DeskCalculator
