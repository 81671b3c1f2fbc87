import DeskCalculator.Toml.String
import DeskCalculator.Toml.Value
/-!
TOML values written without quotes or brackets: integers, numbers with a fraction or an exponent,
truth values, dates and times. Digits may be grouped by underscores.
-/
namespace DeskCalculator.Toml

def dropSign : Text → Text
  | '+' :: rest => rest
  | '-' :: rest => rest
  | t => t

def digitValue (c : Char) : Nat := (hexDigit? c).getD 16

def isHexDigit (c : Char) : Bool := (hexDigit? c).isSome

def groupedAfter (isDigit : Char → Bool) : Bool → Text → Bool
  | _, [] => true
  | digitBefore, c :: rest =>
    if c = '_' then digitBefore && rest.head?.any isDigit && groupedAfter isDigit false rest
    else groupedAfter isDigit (isDigit c) rest

/-- Whether every underscore of a text stands between two digits, where the first character of the
text passes for a digit. Characters away from underscores are not looked at. -/
def isGrouped (isDigit : Char → Bool) : Text → Bool
  | [] => true
  | c :: rest => c != '_' && groupedAfter isDigit true rest

def wholeNumber? (base : Nat) (t : Text) : Option Nat :=
  let digits := t.filter (· != '_')
  if digits.isEmpty || digits.any (base ≤ digitValue ·) then none
  else some (digits.foldl (fun n c => n * base + digitValue c) 0)

def basedInteger? (base : Nat) (t : Text) : Option Value :=
  if t.all (fun c => c == '_' || digitValue c < base) && isGrouped isHexDigit t then
    some (.integer ((wholeNumber? base t).map Int.ofNat))
  else none

def hasLeadingZero (t : Text) : Bool := t.head? == some '0' && t.length != 1

/-- An integer in base ten, without a zero in front. Digits in groups may be followed by other
characters; the text then stands for no number. -/
def decimalInteger? (t : Text) : Option Value :=
  let unsigned := dropSign t
  let tail := unsigned.dropWhile Char.isDigit
  if unsigned.isEmpty || hasLeadingZero unsigned then none
  else if (tail.isEmpty || tail.head? == some '_') && isGrouped isHexDigit t then
    let n? : Option Int := (wholeNumber? 10 unsigned).map Int.ofNat
    some (.integer (if t.head? = some '-' then n?.map (-·) else n?))
  else none

def digitRun? (t : Text) : Option (Text × Text) :=
  let (run, rest) := t.span fun c => c.isDigit || c == '_'
  if run.any Char.isDigit then some (run, rest) else none

def mantissa? (t : Text) : Option Text := do
  let (run, rest) ← digitRun? t
  if run.head? = some '0' ∧ 1 < run.countP Char.isDigit then none else some rest

def fraction? : Text → Option Text
  | '.' :: rest => (digitRun? rest).map (·.2)
  | rest => some rest

def exponent? : Text → Option Text
  | c :: rest =>
    if c = 'e' ∨ c = 'E' then (digitRun? (dropSign rest)).map (·.2) else some (c :: rest)
  | [] => some []

def isFloat (t : Text) : Bool :=
  (do exponent? (← fraction? (← mantissa? (dropSign t)))) == some [] && isGrouped Char.isDigit t

def digits? (count : Nat) (t : Text) : Option (Nat × Text) :=
  let digits := t.take count
  if digits.length = count ∧ digits.all Char.isDigit = true then
    some (Nat.ofDigitChars 10 digits 0, t.drop count)
  else none

def after? (c : Char) : Text → Option Text
  | d :: rest => if c = d then some rest else none
  | [] => none

def isLeapYear (year : Nat) : Bool := year % 4 == 0 && (year % 100 != 0 || year % 400 == 0)

def daysInMonth (year month : Nat) : Nat :=
  if month = 2 then if isLeapYear year then 29 else 28
  else if month = 4 ∨ month = 6 ∨ month = 9 ∨ month = 11 then 30
  else 31

def date? (t : Text) : Option Text := do
  let (year, t) ← digits? 4 t
  let (month, t) ← digits? 2 (← after? '-' t)
  let (day, t) ← digits? 2 (← after? '-' t)
  if 1 ≤ month ∧ month ≤ 12 ∧ 1 ≤ day ∧ day ≤ daysInMonth year month then some t else none

def hourMinute? (t : Text) : Option Text := do
  let (hour, t) ← digits? 2 t
  let (minute, t) ← digits? 2 (← after? ':' t)
  if hour < 24 ∧ minute < 60 then some t else none

def time? (t : Text) : Option Text := do
  let t ← hourMinute? t
  match t with
  | ':' :: t =>
    let (second, t) ← digits? 2 t
    if 60 < second then none
    else match t with
      | '.' :: t =>
        if (t.takeWhile Char.isDigit).isEmpty then none else some (t.dropWhile Char.isDigit)
      | t => some t
  | t => some t

def isOffset : Text → Bool
  | [] => true
  | [c] => c == 'Z' || c == 'z'
  | c :: rest => (c == '+' || c == '-') && hourMinute? rest == some []

def isDateTime (t : Text) : Bool :=
  time? t == some [] ||
    match date? t with
    | some [] => true
    | some (c :: rest) => (c == 'T' || c == 't' || c == ' ') && (time? rest).any isOffset
    | none => false

def numberOrTime? (t : Text) : Option Value :=
  let tail := (dropSign t).dropWhile Char.isDigit
  if tail.head? = some '-' ∨ tail.head? = some ':' then
    if isDateTime t then some .dateTime else none
  else if tail.contains ' ' then none
  else if tail.any fun c => c == '.' || c == 'e' || c == 'E' then
    if isFloat t then some .float else none
  else decimalInteger? t

def scalarValue? (t : Text) : Option Value :=
  if t = "true".toList ∨ t = "false".toList then some .boolean
  else if dropSign t = "inf".toList ∨ dropSign t = "nan".toList then some .float
  else match t with
    | '0' :: 'x' :: digits => basedInteger? 16 digits
    | '0' :: 'o' :: digits => basedInteger? 8 digits
    | '0' :: 'b' :: digits => basedInteger? 2 digits
    | t => numberOrTime? t

end DeskCalculator.Toml
