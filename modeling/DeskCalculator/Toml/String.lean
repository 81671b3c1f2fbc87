import DeskCalculator.Text.Basic
/-!
TOML strings, in single and double quotes, on one line and on several. Each reader starts after the
opening quotes and gives the string with the text after the closing ones. Line ends stay as they are
written.
-/
namespace DeskCalculator.Toml

def isControl (c : Char) : Bool := (c.toNat < 0x20 && c != '\t') || c.toNat = 0x7f

/-- Whether a line ends at a character, which is a line feed, or a carriage return with a line feed
after it. A carriage return elsewhere is a control like others. -/
def isLineEnd (c : Char) (rest : Text) : Bool :=
  c == '\n' || (c == '\r' && rest.head? == some '\n')

def hexDigit? (c : Char) : Option Nat :=
  if c.isDigit then some (c.toNat - '0'.toNat)
  else if 'a' ≤ c ∧ c ≤ 'f' then some (c.toNat - 'a'.toNat + 10)
  else if 'A' ≤ c ∧ c ≤ 'F' then some (c.toNat - 'A'.toNat + 10)
  else none

def scalar? (n : Nat) : Option Char := if n.isValidChar then some (Char.ofNat n) else none

inductive Escape where
  | outside
  | begun
  | hex (digits value : Nat)
  | lineEnd
  | skipping
  deriving DecidableEq

def shortEscape? (c : Char) : Option Char :=
  if c = 'b' then some '\x08'
  else if c = 't' then some '\t'
  else if c = 'n' then some '\n'
  else if c = 'f' then some '\x0c'
  else if c = 'r' then some '\r'
  else if c = 'e' then some '\x1b'
  else if c = '"' ∨ c = '\\' then some c
  else none

def hexEscape? (c : Char) : Option Nat :=
  if c = 'x' then some 2 else if c = 'u' then some 4 else if c = 'U' then some 8 else none

def prepend (c : Char) (r : Option (Text × Text)) : Option (Text × Text) :=
  r.map fun (s, rest) => (c :: s, rest)

/-- A string in double quotes; `multi` tells whether it is one of several lines, which three quotes
close. Up to two quotes may stand before those. -/
def basicString (multi : Bool) : Escape → Text → Option (Text × Text)
  | _, [] => none
  | .begun, c :: rest =>
    match shortEscape? c, hexEscape? c with
    | some d, _ => prepend d (basicString multi .outside rest)
    | none, some digits => basicString multi (.hex digits 0) rest
    | none, none =>
      if multi = true ∧ c = '\n' then basicString multi .skipping rest
      else if multi = true ∧ (c = ' ' ∨ c = '\t' ∨ isLineEnd c rest = true) then
        basicString multi .lineEnd rest
      else none
  | .hex digits value, c :: rest =>
    match hexDigit? c with
    | none => none
    | some d =>
      if digits ≤ 1 then
        match scalar? (value * 16 + d) with
        | some s => prepend s (basicString multi .outside rest)
        | none => none
      else basicString multi (.hex (digits - 1) (value * 16 + d)) rest
  | .lineEnd, c :: rest =>
    if c = '\n' then basicString multi .skipping rest
    else if c = ' ' ∨ c = '\t' ∨ isLineEnd c rest = true then basicString multi .lineEnd rest
    else none
  | state, c :: rest =>
    if state = .skipping ∧ (c = ' ' ∨ c = '\t' ∨ isLineEnd c rest = true) then
      basicString multi .skipping rest
    else if c = '"' then
      if multi then
        match rest with
        | '"' :: '"' :: '"' :: '"' :: after => some (['"', '"'], after)
        | '"' :: '"' :: '"' :: after => some (['"'], after)
        | '"' :: '"' :: after => some ([], after)
        | _ => prepend '"' (basicString multi .outside rest)
      else some ([], rest)
    else if c = '\\' then basicString multi .begun rest
    else if multi = true ∧ isLineEnd c rest = true then
      prepend c (basicString multi .outside rest)
    else if isControl c then none
    else prepend c (basicString multi .outside rest)

def literalString (multi : Bool) : Text → Option (Text × Text)
  | [] => none
  | c :: rest =>
    if c = '\'' then
      if multi then
        match rest with
        | '\'' :: '\'' :: '\'' :: '\'' :: after => some (['\'', '\''], after)
        | '\'' :: '\'' :: '\'' :: after => some (['\''], after)
        | '\'' :: '\'' :: after => some ([], after)
        | _ => prepend '\'' (literalString multi rest)
      else some ([], rest)
    else if multi = true ∧ isLineEnd c rest = true then prepend c (literalString multi rest)
    else if isControl c then none
    else prepend c (literalString multi rest)

def dropLineEnd : Text → Text
  | '\n' :: rest => rest
  | '\r' :: '\n' :: rest => rest
  | t => t

def string? : Text → Option (Text × Text)
  | '"' :: '"' :: '"' :: rest => basicString true .outside (dropLineEnd rest)
  | '"' :: rest => basicString false .outside rest
  | '\'' :: '\'' :: '\'' :: rest => literalString true (dropLineEnd rest)
  | '\'' :: rest => literalString false rest
  | _ => none

end DeskCalculator.Toml
