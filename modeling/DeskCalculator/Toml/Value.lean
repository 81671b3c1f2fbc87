import DeskCalculator.Text.Basic
/-!
TOML values and tables. A table knows how it came about, for that decides what may be added to it
later. Of numbers with a fraction, truth values and dates only the kind is kept.
-/
namespace DeskCalculator.Toml

inductive Origin where
  | parent
  | header
  | dotted
  | inline
  deriving DecidableEq

/-- A TOML value. An array that headers made grows with each of them. An integer may be written so
that it stands for no number; that is a fault only where the number is asked for. -/
inductive Value where
  | string (t : Text)
  | integer (n : Option Int)
  | float
  | boolean
  | dateTime
  | array (grows : Bool) (items : List Value)
  | table (origin : Origin) (entries : List (Text × Value))

abbrev Entries := List (Text × Value)

def Entries.alter (key : Text) (change : Option Value → Option Value) : Entries → Option Entries
  | [] => (change none).map fun v => [(key, v)]
  | (k, v) :: rest =>
    if k = key then (change (some v)).map fun v => (k, v) :: rest
    else (Entries.alter key change rest).map ((k, v) :: ·)

/-- The entries with one more value, at a dotted key. No value is set twice, and a dotted key adds
only to tables that dotted keys made. -/
def Entries.assign (value : Value) : List Text → Entries → Option Entries
  | [], _ => none
  | [key], entries => entries.alter key fun
    | none => some value
    | some _ => none
  | key :: path, entries => entries.alter key fun
    | none => (Entries.assign value path []).map (.table .dotted)
    | some (.table .dotted inner) => (Entries.assign value path inner).map (.table .dotted)
    | some _ => none

def Entries.within (change : Option Value → Option Value) : List Text → Entries → Option Entries
  | [], _ => none
  | [key], entries => entries.alter key change
  | key :: path, entries => entries.alter key fun
    | none => (Entries.within change path []).map (.table .parent)
    | some (.table .inline _) => none
    | some (.table origin inner) => (Entries.within change path inner).map (.table origin)
    | some (.array true items) =>
      match items.getLast? with
      | some (.table origin inner) =>
        (Entries.within change path inner).map fun inner =>
          .array true (items.dropLast ++ [.table origin inner])
      | _ => none
    | some _ => none

def openTable : Option Value → Option Value
  | none => some (.table .header [])
  | some (.table .parent entries) => some (.table .header entries)
  | some _ => none

def openArrayItem : Option Value → Option Value
  | none => some (.array true [.table .header []])
  | some (.array true items) => some (.array true (items ++ [.table .header []]))
  | some _ => none

def assignWithin (value : Value) (path : List Text) : Option Value → Option Value
  | some (.table origin entries) => (Entries.assign value path entries).map (.table origin)
  | some (.array true items) =>
    match items.getLast? with
    | some (.table origin entries) =>
      (Entries.assign value path entries).map fun entries =>
        .array true (items.dropLast ++ [.table origin entries])
    | _ => none
  | _ => none

end DeskCalculator.Toml
