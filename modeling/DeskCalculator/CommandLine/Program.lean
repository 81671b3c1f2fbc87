import DeskCalculator.CommandLine.Invocation
import DeskCalculator.Config
import DeskCalculator.Evaluator.Json
import DeskCalculator.Panel
/-!
The program: what a command prints and how it exits. A session at the terminal is only prepared
here.
-/
namespace DeskCalculator.CommandLine

structure Report where
  exitCode : Nat
  output : Text := []
  errors : Text := []
  deriving DecidableEq

inductive Plan where
  | report (r : Report)
  | session (engine : Engine)

def readButtons (labels : List Text) : Except UnknownButton (List Input) :=
  labels.mapM Input.ofButton

def labelWidth : Nat := 12

def traceLine (label shown : Text) : Text :=
  Text.padLeft labelWidth label ++ ' ' :: ' ' :: shown ++ ['\n']

def pressed (engine : Engine) (trace : Bool) (labels : List Text) (inputs : List Input) : Text :=
  let recording := ((Panel.attach engine (⟨[]⟩ : Recording)).feedAll inputs).display
  if trace then (List.zipWith traceLine labels (recording.frames.drop 1)).flatten
  else match recording.current? with
    | some shown => shown ++ ['\n']
    | none => []

def press (engine : Engine) (trace : Bool) (labels : List Text) : Except UnknownButton Text := do
  .ok (pressed engine trace labels (← readButtons labels))

def errorReport (message : Text) (causes : List Text) : Text :=
  let lines := match causes with
    | [] => []
    | [cause] => "\n\nCaused by:\n    ".toList ++ cause
    | causes => "\n\nCaused by:".toList ++ causes.zipIdx.flatMap fun (cause, i) =>
      '\n' :: Text.padLeft 5 (Nat.toDigits 10 i) ++ ':' :: ' ' :: cause
  "Error: ".toList ++ message ++ lines ++ ['\n']

def configReport (e : ConfigError) : Report :=
  { exitCode := 1
    errors := errorReport "failed to load config".toList (e.message :: e.cause?.toList) }

def evaluated (evaluator : Evaluator) (json : Bool) (expression : Text) : Report :=
  let outcome := evaluator.outcome expression
  { exitCode := if outcome.isSuccess then 0 else 1
    output := (if json then outcome.json else outcome.display) ++ ['\n'] }

def versionLine : Text := "zcalc 0.1.0\n".toList

def usageLine : Text :=
  "Usage: zcalc [--config CONFIG] [--verbose] ".toList ++
    "[interactive | press [--trace] BUTTONS... | eval [--json] EXPRESSION]\n".toList

def stopReport : Stop → Report
  | .usage => { exitCode := 2, errors := usageLine }
  | .help => { exitCode := 0, output := usageLine }
  | .version => { exitCode := 0, output := versionLine }

def execute (config : Config) : Command → Plan
  | .interactive => .session (Engine.initial config.evaluator)
  | .press trace labels =>
    match press (Engine.initial config.evaluator) trace labels with
    | .ok output => .report { exitCode := 0, output := output }
    | .error e => .report { exitCode := 1, errors := errorReport e.message [] }
  | .eval json expression => .report (evaluated config.evaluator json expression)

def loadConfig (content : Text → Config.Content) (defaultPath : Text) (config? : Option Text) :
    Except ConfigError Config :=
  match config? with
  | some path => Config.ofFile path (content path)
  | none => Config.ofDefaultFile defaultPath (content defaultPath)

def plan (content : Text → Config.Content) (defaultPath : Text) (arguments : List Text) : Plan :=
  match Invocation.ofArguments arguments with
  | .error stop => .report (stopReport stop)
  | .ok invocation =>
    match loadConfig content defaultPath invocation.config? with
    | .error e => .report (configReport e)
    | .ok config => execute config invocation.command

end DeskCalculator.CommandLine
