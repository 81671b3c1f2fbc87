import DeskCalculator.CommandLine.Program
import DeskCalculator.Terminal.Session
/-!
The executable: it reads files and keys, and writes what the library answers.
-/
open DeskCalculator DeskCalculator.Terminal DeskCalculator.CommandLine

def readContent (path : Text) : IO Config.Content := do
  try
    let bytes ← IO.FS.readBinFile (String.ofList path)
    match String.fromUTF8? bytes with
    | some t => pure (.text t.toList)
    | none => pure .notText
  catch _ => pure .absent

def flushScreen (w : Panel (Screen Memory)) : IO (Panel (Screen Memory)) := do
  let out ← IO.getStdout
  out.putStr (String.ofList w.display.sink.written)
  out.flush
  pure { w with display := { w.display with sink := .empty } }

partial def converse (w : Panel (Screen Memory)) : IO Unit := do
  let line ← (← IO.getStdin).getLine
  if line.isEmpty then return
  let keys := line.toList.map KeyEvent.ofChar
  let w ← flushScreen (session w keys)
  unless keys.any KeyEvent.isQuit do converse w

def main (arguments : List String) : IO UInt32 := do
  let arguments := arguments.map String.toList
  let home := (← IO.getEnv "HOME").getD ""
  let configHome := (← IO.getEnv "XDG_CONFIG_HOME").getD ""
  let defaultPath := Config.defaultPath configHome.toList home.toList
  let config? := (Invocation.ofArguments arguments).toOption.bind (·.config?)
  let content ← readContent (config?.getD defaultPath)
  match plan (fun _ => content) defaultPath arguments with
  | .report r =>
    IO.print (String.ofList r.output)
    IO.eprint (String.ofList r.errors)
    pure (UInt32.ofNat r.exitCode)
  | .session engine =>
    let out ← IO.getStdout
    out.putStr (String.ofList Terminal.enter)
    let screen := Screen.blank Memory.empty engine.evaluator.errorMarker
    converse (← flushScreen (Panel.attach engine screen))
    out.putStr (String.ofList leave)
    pure 0
