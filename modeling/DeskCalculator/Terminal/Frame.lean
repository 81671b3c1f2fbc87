import DeskCalculator.Key
/-!
The picture of the calculator on a terminal: a box with the readout at its right end and the key
legend under it, as the list of texts that are written one after another.
-/
namespace DeskCalculator.Terminal

def control (t : Text) : Text := '\x1b' :: '[' :: t

def clearScreen : Text := control "2J".toList

def moveTo (row column : Nat) : Text :=
  control (Nat.toDigits 10 row ++ ';' :: Nat.toDigits 10 column ++ ['H'])

def errorColour : Text := control "38;2;230;110;80m".toList

def plainColour : Text := control "39m".toList

def legendColour : Text := control "38;5;8m".toList

def resetColour : Text := control "0m".toList

def boxWidth : Nat := 28

def keyWidth : Nat := 8

def fit (width : Nat) (t : Text) : Text :=
  if t.length ≤ width then t else '…' :: t.drop (t.length - (width - 1))

def field (t : Text) : Text := Text.padLeft boxWidth (fit boxWidth t)

def border : Text := List.replicate (boxWidth + 2) '─'

def box (errorMarker text : Text) : List Text := [
  clearScreen,
  moveTo 1 1, '┌' :: border ++ ['┐'],
  moveTo 2 1, ['│', ' '],
  if text = errorMarker then errorColour else plainColour,
  field text,
  resetColour, [' ', '│'],
  moveTo 3 1, '└' :: border ++ ['┘']]

def legendRow (row : Nat) (entry : Text × Text) : List Text := [
  moveTo row 2, legendColour, Text.padLeft keyWidth entry.1, resetColour, ' ' :: ' ' :: entry.2]

def frame (errorMarker text : Text) : List Text :=
  box errorMarker text ++ (keyLegend.zipIdx 5).flatMap fun entry => legendRow entry.2 entry.1

end DeskCalculator.Terminal
