import DeskCalculator.Evaluator.Basic
import DeskCalculator.Toml.Document
/-!
The configuration: the settings and their defaults, how a TOML table gives them, and which of them
are accepted.
-/
namespace DeskCalculator

structure Config where
  errorMarker : Text := Evaluator.defaultErrorMarker
  decimalPlaces : UInt32 := Evaluator.defaultDecimalPlaces
  logLevel : Text := "warn".toList
  deriving DecidableEq

inductive ConfigError where
  | missing (path : Text)
  | notText (path : Text)
  | malformed (path : Text)
  | emptyErrorMarker
  | tooManyPlaces (places : UInt32)
  deriving DecidableEq

namespace ConfigError

def cause? : ConfigError → Option Text
  | missing _ => some "No such file or directory (os error 2)".toList
  | notText _ => some "stream did not contain valid UTF-8".toList
  | _ => none

def message : ConfigError → Text
  | missing path =>
    "failed to read ".toList ++ path ++ ": No such file or directory (os error 2)".toList
  | notText path =>
    "failed to read ".toList ++ path ++ ": stream did not contain valid UTF-8".toList
  | malformed path => "failed to parse ".toList ++ path
  | emptyErrorMarker => "invalid configuration: display.error_marker must not be empty".toList
  | tooManyPlaces places =>
    "invalid configuration: display.decimal_places must be at most 15, got ".toList ++
      Nat.toDigits 10 places.toNat

end ConfigError

namespace Config

def maxDecimalPlaces : UInt32 := 15

open Toml (Value)

/-- A setting is a change of the configuration by a value; `none` refuses the value. -/
abbrev Setting := Value → Config → Option Config

def setErrorMarker : Setting
  | .string t, config => some { config with errorMarker := t }
  | _, _ => none

def setDecimalPlaces : Setting
  | .integer (some n), config =>
    if 0 ≤ n ∧ n < UInt32.size then some { config with decimalPlaces := .ofNat n.toNat } else none
  | _, _ => none

def setLogLevel : Setting
  | .string t, config => some { config with logLevel := t }
  | _, _ => none

abbrev Section := List (Text × Setting)

def displaySection : Section :=
  [("error_marker".toList, setErrorMarker), ("decimal_places".toList, setDecimalPlaces)]

def logSection : Section := [("level".toList, setLogLevel)]

/-- A section is a table with no settings but its own. An array stands for the settings in their
order: it may be shorter, and what it has beyond them is not looked at. -/
def setSection (settings : Section) : Setting
  | .table _ entries, config =>
    entries.foldlM (fun config (key, v) => do (← settings.lookup key) v config) config
  | .array _ items, config =>
    (settings.zip items).foldlM (fun config (setting, v) => setting.2 v config) config
  | _, _ => none

def sections : Section :=
  [("display".toList, setSection displaySection), ("log".toList, setSection logSection)]

def ofDocument (path t : Text) : Except ConfigError Config :=
  match do setSection sections (.table .header (← Toml.parse? t)) {} with
  | some config => .ok config
  | none => .error (.malformed path)

def validate (config : Config) : Except ConfigError Config :=
  if Text.trim config.errorMarker = [] then .error .emptyErrorMarker
  else if maxDecimalPlaces < config.decimalPlaces then .error (.tooManyPlaces config.decimalPlaces)
  else .ok config

inductive Content where
  | absent
  | notText
  | text (t : Text)
  deriving DecidableEq

def ofFile (path : Text) : Content → Except ConfigError Config
  | .absent => .error (.missing path)
  | .notText => .error (.notText path)
  | .text t => do validate (← ofDocument path t)

def ofDefaultFile (path : Text) : Content → Except ConfigError Config
  | .absent => .ok {}
  | content => ofFile path content

def evaluator (config : Config) : Evaluator := ⟨config.errorMarker, config.decimalPlaces⟩

def join (directory part : Text) : Text :=
  if directory.isEmpty || Text.endsWith (· == '/') directory then directory ++ part
  else directory ++ '/' :: part

def defaultPath (configHome home : Text) : Text :=
  let directory := if configHome.head? = some '/' then configHome else join home ".config".toList
  join (join directory "zcalc".toList) "config.toml".toList

end Config

end DeskCalculator
