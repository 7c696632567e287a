import SubstitutionAutomata.Board.Basic

/-! Boards as lines of glyphs. -/

namespace SubstitutionAutomata.Board

def liveGlyph : Char := '█'

def deadGlyph : Char := ' '

/-- A full block for every live cell. -/
def blockLines (b : Board) : List String :=
  b.rows.map fun row => String.ofList (row.map fun n => if n = 0 then deadGlyph else liveGlyph)

/-- The weight of each dot of a braille cell: three rows of two dots, and a fourth row added later.
-/
def dotWeights : List (List Nat) := [[1, 8], [2, 16], [4, 32], [64, 128]]

/-- The first of the braille characters, the one without dots. -/
def brailleBase : Nat := 0x2800

/-- The dots of the four rows and two columns from row `y` and column `x` on. -/
def dots (b : Board) (y x : Nat) : Nat :=
  addUp (dotWeights.mapIdx fun i weights =>
    addUp (weights.mapIdx fun j weight => weight * b.cell (y + i) (x + j)))

/-- Every braille character stands for four rows and two columns. -/
def brailleLines (b : Board) : List String :=
  (List.range ((b.height + 3) / 4)).map fun i => String.ofList <|
    (List.range ((b.width + 1) / 2)).map fun j => Char.ofNat (brailleBase + b.dots (4 * i) (2 * j))

inductive Renderer where
  | block
  | braille
  deriving DecidableEq, Repr

def Renderer.ofName? (name : String) : Option Renderer :=
  if name = "block" then some block else if name = "braille" then some braille else none

def render (b : Board) : Renderer → List String
  | .block => b.blockLines
  | .braille => b.brailleLines

/-- Moves a terminal's cursor to the top left corner and clears the screen. -/
def clearScreen : String := "\x1b[H\x1b[2J"

/-- What is written to show some lines. -/
def frame (lines : List String) (clear : Bool) : String :=
  (if clear then clearScreen else "") ++ String.join (lines.map (· ++ "\n"))

end SubstitutionAutomata.Board
