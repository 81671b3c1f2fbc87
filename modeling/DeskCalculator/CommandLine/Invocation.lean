import DeskCalculator.Text.Basic
/-!
Command-line arguments: the options, the commands and what they take. Options are looked for until
the first button, for buttons and expressions may start with a dash.
-/
namespace DeskCalculator.CommandLine

inductive Command where
  | interactive
  | press (trace : Bool) (buttons : List Text)
  | eval (json : Bool) (expression : Text)
  deriving DecidableEq, Repr

structure Invocation where
  config? : Option Text
  verbose : Bool
  command : Command
  deriving DecidableEq, Repr

inductive Stop where
  | usage
  | help
  | version
  deriving DecidableEq, Repr

inductive Flag where
  | verbose
  | help
  | version
  | trace
  | json
  deriving DecidableEq, Repr

inductive Level where
  | program
  | interactive
  | press
  | eval
  deriving DecidableEq, Repr

namespace Level

def flags : Level → List (Text × Option Char × Flag)
  | program => ("version".toList, some 'V', .version) :: shared
  | interactive => shared
  | press => ("trace".toList, none, .trace) :: shared
  | eval => ("json".toList, none, .json) :: shared
where
  shared := [("verbose".toList, some 'v', .verbose), ("help".toList, some 'h', .help)]

def longFlag? (level : Level) (name : Text) : Option Flag :=
  (level.flags.find? fun f => f.1 == name).map (·.2.2)

def letterFlag? (level : Level) (c : Char) : Option Flag :=
  (level.flags.find? fun f => f.2.1 == some c).map (·.2.2)

end Level

inductive Argument where
  | terminator
  | long (name : Text) (value? : Option Text)
  | letters (cs : Text)
  | plain

def Argument.ofText : Text → Argument
  | ['-', '-'] => .terminator
  | '-' :: '-' :: rest =>
    let name := rest.takeWhile (· != '=')
    .long name (if name.length < rest.length then some (rest.drop (name.length + 1)) else none)
  | '-' :: c :: rest => .letters (c :: rest)
  | _ => .plain

structure Given where
  config? : Option Text := none
  flags : List Flag := []
  operands : List Text := []

namespace Given

def flag (g : Given) (f : Flag) : Except Stop Given :=
  if f = .help then .error .help
  else if f = .version then .error .version
  else if g.flags.contains f then .error .usage
  else .ok { g with flags := f :: g.flags }

def config (g : Given) (path : Text) : Except Stop Given :=
  if path = [] ∨ g.config?.isSome = true then .error .usage else .ok { g with config? := some path }

def operand (g : Given) (level : Level) (t : Text) : Except Stop Given :=
  if level = .press ∨ (level = .eval ∧ g.operands = []) then
    .ok { g with operands := g.operands ++ [t] }
  else .error .usage

/-- Whether an unknown option counts as an operand: one is still due that may start with a dash. -/
def takesDashes (g : Given) (level : Level) : Bool :=
  (level == .press || level == .eval) && g.operands.isEmpty

/-- An argument that starts with dashes and is no option of the level. `awaiting` tells whether the
path of the configuration is due. -/
def unknown (g : Given) (level : Level) (awaiting : Bool) (t : Text) : Except Stop Given :=
  if g.takesDashes level then if awaiting then g.config t else g.operand level t
  else .error .usage

def letters (g : Given) (level : Level) (awaiting : Bool) (cs : Text) : Except Stop Given :=
  if g.takesDashes level ∧ cs.any (fun c => (level.letterFlag? c).isNone) = true then
    g.unknown level awaiting ('-' :: cs)
  else if awaiting then .error .usage
  else cs.foldlM (fun g c => match level.letterFlag? c with
    | some f => g.flag f
    | none => .error .usage) g

end Given

def scan (level : Level) (g : Given) (awaiting : Bool) :
    List Text → Except Stop (Given × List Text)
  | [] => if awaiting then .error .usage else .ok (g, [])
  | a :: rest =>
    if level = .press ∧ g.operands ≠ [] then do scan level (← g.operand level a) false rest
    else match Argument.ofText a with
      | .terminator =>
        if awaiting then .error .usage
        else do .ok (← rest.foldlM (fun g t => g.operand level t) g, [])
      | .long name value? =>
        if name = "config".toList then
          if awaiting then .error .usage
          else match value? with
            | some path => do scan level (← g.config path) false rest
            | none => scan level g true rest
        else match level.longFlag? name with
          | some f => if awaiting || value?.isSome then .error .usage else do
            scan level (← g.flag f) false rest
          | none => do scan level (← g.unknown level awaiting a) false rest
      | .letters cs => do scan level (← g.letters level awaiting cs) false rest
      | .plain =>
        if awaiting then do scan level (← g.config a) false rest
        else if level = .program then .ok (g, a :: rest)
        else do scan level (← g.operand level a) false rest

def Given.command (g : Given) : Level → Except Stop Command
  | .program => .ok .interactive
  | .interactive => .ok .interactive
  | .press =>
    if g.operands = [] then .error .usage else .ok (.press (g.flags.contains .trace) g.operands)
  | .eval =>
    match g.operands with
    | expression :: _ => .ok (.eval (g.flags.contains .json) expression)
    | [] => .error .usage

def commands : List (Text × Level) :=
  [("interactive".toList, .interactive), ("press".toList, .press), ("eval".toList, .eval)]

def helpOn : List Text → Stop
  | [] => .help
  | [name] => if name = "help".toList ∨ (commands.lookup name).isSome = true then .help else .usage
  | _ => .usage

/-- The invocation that the arguments spell. An option counts wherever it is given, and of two paths
the command's own. -/
def Invocation.ofArguments (arguments : List Text) : Except Stop Invocation := do
  let (outer, rest) ← scan .program {} false arguments
  match rest with
  | [] => .ok ⟨outer.config?, outer.flags.contains .verbose, .interactive⟩
  | name :: rest =>
    match commands.lookup name with
    | none => .error (if name = "help".toList then helpOn rest else .usage)
    | some level =>
      let (inner, _) ← scan level {} false rest
      .ok ⟨inner.config?.orElse fun _ => outer.config?,
        inner.flags.contains .verbose || outer.flags.contains .verbose, ← inner.command level⟩

end DeskCalculator.CommandLine
