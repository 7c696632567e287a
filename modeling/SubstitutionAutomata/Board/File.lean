import SubstitutionAutomata.Board.Basic
import SubstitutionAutomata.Text.Blank
import SubstitutionAutomata.Text.Lines
import SubstitutionAutomata.Text.Quoted

/-! Boards written as lines of zeros and ones. -/

namespace SubstitutionAutomata.Board

open Text

/-- The lines of a board's text, without the blanks around them; blank lines do not count. -/
def linesOfText (text : String) : List String :=
  ((Text.lines text).map fun line => strip line.toList).filter (· ≠ []) |>.map String.ofList

inductive ParseError where
  | empty
  | rowLength (row length expected : Nat)
  | unknownSymbols (row : Nat) (symbols : List Char)
  deriving DecidableEq, Repr

def ParseError.message : ParseError → String
  | empty => "Board is empty"
  | rowLength row length expected => s!"Row {row} has length {length}, expected {expected}"
  | unknownSymbols row symbols =>
    let text := String.ofList symbols
    s!"Row {row} contains unknown symbols {quoted text}"

/-- The characters of a text that are not among the known ones, each once, in ascending order. -/
def unknownSymbols (known : Char → Bool) (s : List Char) : List Char :=
  ((s.filter fun c => !known c).mergeSort fun a b => a.toNat ≤ b.toNat).eraseReps

def isBoardSymbol (c : Char) : Bool := c = '0' || c = '1'

/-- A line must be as long as the first one, and then hold zeros and ones only. -/
def checkRow (width : Nat) (y : Nat) (line : List Char) : Except ParseError Unit :=
  if line.length ≠ width then .error (.rowLength y line.length width)
  else match unknownSymbols isBoardSymbol line with
    | [] => .ok ()
    | symbols => .error (.unknownSymbols y symbols)

def checkRows (width : Nat) : Nat → List (List Char) → Except ParseError Unit
  | _, [] => .ok ()
  | y, line :: rest => match checkRow width y line with
    | .error e => .error e
    | .ok () => checkRows width (y + 1) rest

/-- The first row with a fault is reported. -/
def ofLines (lines : List String) : Except ParseError Board :=
  match lines.map String.toList with
  | [] => .error .empty
  | first :: rest =>
    match checkRows first.length 0 (first :: rest) with
    | .error e => .error e
    | .ok () => .ok (ofRows first.length ((first :: rest).map fun line =>
        line.map fun c => if c = '1' then 1 else 0))

def ofText (text : String) : Except ParseError Board := ofLines (linesOfText text)

end SubstitutionAutomata.Board
