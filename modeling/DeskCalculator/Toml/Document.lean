import DeskCalculator.Toml.Scalar
import DeskCalculator.Toml.String
/-!
TOML documents: the text, statement by statement, into a table. Readers give what they read with
the rest of the text. They count a bound down as they go on, and the length of the text is bound
enough, since what they go on with has grown shorter.
-/
namespace DeskCalculator.Toml

def isBareKey (c : Char) : Bool := c.isAlphanum || c == '_' || c == '-'

def isSpace (c : Char) : Bool := c == ' ' || c == '\t'

def skipSpaces (t : Text) : Text := t.dropWhile isSpace

def skipComment : Text → Option Text
  | [] => some []
  | c :: rest =>
    if isLineEnd c rest then some (c :: rest) else if isControl c then none else skipComment rest

def skipGap : Bool → Text → Option Text
  | _, [] => some []
  | true, c :: rest =>
    if isLineEnd c rest then skipGap false rest
    else if isControl c then none
    else skipGap true rest
  | false, c :: rest =>
    if isSpace c || isLineEnd c rest then skipGap false rest
    else if c = '#' then skipGap true rest
    else some (c :: rest)

def endLine (t : Text) : Option Text :=
  match skipSpaces t with
  | [] => some []
  | '#' :: rest => skipComment rest
  | c :: rest => if isLineEnd c rest then some (c :: rest) else none

def keyPart : Text → Option (Text × Text)
  | '"' :: rest => basicString false .outside rest
  | '\'' :: rest => literalString false rest
  | t =>
    let part := t.takeWhile isBareKey
    if part.isEmpty then none else some (part, t.drop part.length)

def maxKeyParts : Nat := 80

def maxDepth : Nat := 80

def key : Nat → Text → Option (List Text × Text)
  | 0, _ => none
  | parts + 1, t => do
    let (part, rest) ← keyPart (skipSpaces t)
    match skipSpaces rest with
    | '.' :: rest =>
      let (path, rest) ← key parts rest
      some (part :: path, rest)
    | rest => some ([part], rest)

def isScalarChar (c : Char) : Bool := !"=,[]\x7b\x7d \t#\r\n".toList.contains c

def startsWord : Text → Bool
  | [] => false
  | c :: _ => isScalarChar c && c != '.' && c != '"' && c != '\''

/-- The text of a value without quotes or brackets, and the rest. Blanks between two words belong to
it, so that a date and a time are one value. -/
def scalarText : Text → Text × Text
  | [] => ([], [])
  | c :: rest =>
    if isScalarChar c || (isSpace c && startsWord (skipSpaces rest)) then
      let (t, rest) := scalarText rest
      (c :: t, rest)
    else ([], c :: rest)

def scalar (t : Text) : Option (Value × Text) :=
  let (word, rest) := scalarText t
  (scalarValue? word).map (·, rest)

mutual

/-- A value, inside which `depth` brackets and braces may still be opened. -/
def value : Nat → Nat → Text → Option (Value × Text)
  | 0, _, _ => none
  | _ + 1, 0, '[' :: _ => none
  | _ + 1, 0, '\x7b' :: _ => none
  | bound + 1, depth + 1, '[' :: rest => do
    let (items, rest) ← elements bound depth rest
    some (.array false items, rest)
  | bound + 1, depth + 1, '\x7b' :: rest => do
    let (entries, rest) ← pairs bound depth [] rest
    some (.table .inline entries, rest)
  | _ + 1, _, t =>
    match string? t with
    | some (s, rest) => some (.string s, rest)
    | none => scalar t

def elements : Nat → Nat → Text → Option (List Value × Text)
  | 0, _, _ => none
  | bound + 1, depth, t => do
    match ← skipGap false t with
    | ']' :: rest => some ([], rest)
    | t =>
      let (v, rest) ← value bound depth t
      match ← skipGap false rest with
      | ']' :: rest => some ([v], rest)
      | ',' :: rest =>
        let (items, rest) ← elements bound depth rest
        some (v :: items, rest)
      | _ => none

def pairs : Nat → Nat → Entries → Text → Option (Entries × Text)
  | 0, _, _, _ => none
  | bound + 1, depth, entries, t => do
    match ← skipGap false t with
    | '\x7d' :: rest => some (entries, rest)
    | t =>
      let (path, rest) ← key maxKeyParts t
      let rest ← after? '=' (← skipGap false rest)
      let (v, rest) ← value bound depth (← skipGap false rest)
      let entries ← entries.assign v path
      match ← skipGap false rest with
      | '\x7d' :: rest => some (entries, rest)
      | ',' :: rest => pairs bound depth entries rest
      | _ => none

end

inductive Statement where
  | table (path : List Text)
  | arrayItem (path : List Text)
  | assignment (path : List Text) (v : Value)

def statement (bound : Nat) : Text → Option (Statement × Text)
  | '[' :: '[' :: rest => do
    let (path, rest) ← key maxKeyParts rest
    let rest ← after? ']' (← after? ']' rest)
    some (.arrayItem path, ← endLine rest)
  | '[' :: rest => do
    let (path, rest) ← key maxKeyParts rest
    some (.table path, ← endLine (← after? ']' rest))
  | t => do
    let (path, rest) ← key maxKeyParts t
    let (v, rest) ← value bound maxDepth (skipSpaces (← after? '=' rest))
    some (.assignment path v, ← endLine rest)

def statements : Nat → Text → Option (List Statement)
  | 0, _ => none
  | bound + 1, t => do
    match ← skipGap false t with
    | [] => some []
    | t =>
      let (first, rest) ← statement bound t
      some (first :: (← statements bound rest))

structure Draft where
  path : List Text
  entries : Entries

def Draft.add (d : Draft) : Statement → Option Draft
  | .table path => (d.entries.within openTable path).map fun entries => ⟨path, entries⟩
  | .arrayItem path => (d.entries.within openArrayItem path).map fun entries => ⟨path, entries⟩
  | .assignment path v =>
    let entries? :=
      if d.path = [] then d.entries.assign v path
      else d.entries.within (assignWithin v path) d.path
    entries?.map fun entries => { d with entries := entries }

def dropMark : Text → Text
  | '\ufeff' :: rest => rest
  | t => t

def parse? (t : Text) : Option Entries := do
  let t := dropMark t
  let all ← statements (t.length + 1) t
  let draft ← all.foldlM Draft.add ⟨[], []⟩
  some draft.entries

end DeskCalculator.Toml
