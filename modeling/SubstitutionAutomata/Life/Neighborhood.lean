import SubstitutionAutomata.Life.Rule

/-! Windows of three by three cells, row by row. The main statement counts the cells of the binary
windows. -/

namespace SubstitutionAutomata

def live : String := "1"

def dead : String := "0"

/-- The nine cells of a window from the top left to the bottom right, each as it is written in a
buffer; the centre has index 4. -/
abbrev Neighborhood := List String

namespace Neighborhood

def size : Nat := 9

def center : Nat := 4

/-- The rows of a window as text, with slashes between them. -/
def label (cells : Neighborhood) : String :=
  let text := (String.join cells).toList
  let row := fun i => String.ofList ((text.drop (3 * i)).take 3)
  s!"{row 0}/{row 1}/{row 2}"

/-- The window whose live cells are the ones among the nine binary digits of `n`, highest first. -/
def ofNat (n : Nat) : Neighborhood :=
  (List.range size).map fun i => if n.testBit (size - 1 - i) then live else dead

theorem length_ofNat (n : Nat) : (ofNat n).length = size := by simp [ofNat]

def centerAlive (cells : Neighborhood) : Bool := cells[center]? = some live

/-- How many of the cells around the centre are alive. -/
def liveNeighbors (cells : Neighborhood) : Nat := (cells.eraseIdx center).count live

def changesUnder (rule : Rule) (cells : Neighborhood) : Bool :=
  rule.changes cells.centerAlive cells.liveNeighbors

end Neighborhood

/-- The binary windows whose centre changes under a rule, in ascending order of their digits. -/
def Rule.changingNeighborhoods (rule : Rule) : List Neighborhood :=
  ((List.range 512).map Neighborhood.ofNat).filter (Neighborhood.changesUnder rule)

end SubstitutionAutomata
