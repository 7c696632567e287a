import SubstitutionAutomata.Board.Basic
import SubstitutionAutomata.Life.Rule

/-! One generation computed cell by cell from the cells around each one. -/

namespace SubstitutionAutomata.Board

def offsets : List Int := [-1, 0, 1]

/-- The places at most one row and one column away from a place, which is not among them. -/
def placesAround (y x : Int) : List (Int × Int) :=
  (offsets.flatMap fun dy => offsets.map fun dx => (y + dy, x + dx)).filter (· ≠ (y, x))

def contains (b : Board) (place : Int × Int) : Bool :=
  0 ≤ place.1 && place.1 < b.height && 0 ≤ place.2 && place.2 < b.width

/-- The sum of the cells around a place, as far as they are on the board. -/
def sumAround (b : Board) (y x : Nat) : Nat :=
  addUp (((placesAround y x).filter b.contains).map fun place =>
    b.cell place.1.toNat place.2.toNat)

/-- Every cell that the rule changes is flipped; any cell but 0 counts as alive. -/
def next (b : Board) (rule : Rule) : Board :=
  tabulate b.height b.width fun y x =>
    let alive := b.cell y x != 0
    if alive != rule.changes alive (b.sumAround y x) then 1 else 0

/-- The boards after each of `n` generations. -/
def generations (rule : Rule) : Nat → Board → List Board
  | 0, _ => []
  | n + 1, b => b.next rule :: generations rule n (b.next rule)

end SubstitutionAutomata.Board
