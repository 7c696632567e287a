import SubstitutionAutomata.Board.Basic
import SubstitutionAutomata.Life.Rule

/-! The reference automaton: neighbours are summed by a kernel over the board with a dead margin,
and the next board is put together from births and survivals. -/

namespace SubstitutionAutomata

namespace Board

/-- The board inside a margin of dead cells, so that row and column 1 are the first ones. -/
def padded (b : Board) (y x : Nat) : Nat :=
  if 0 < y ∧ 0 < x then b.cell (y - 1) (x - 1) else 0

/-- The weight of each cell of a window; the centre does not count. -/
def kernel : List (List Nat) := [[1, 1, 1], [1, 0, 1], [1, 1, 1]]

/-- The weighted sum of the window whose centre is in row `y` and column `x`. -/
def neighborSum (b : Board) (y x : Nat) : Nat :=
  addUp (kernel.mapIdx fun i weights =>
    addUp (weights.mapIdx fun j weight => weight * b.padded (y + i) (x + j)))

def neighborSums (b : Board) : Board := tabulate b.height b.width b.neighborSum

/-- A cell that is 0 may be born and a cell that is 1 may survive; any other value dies. -/
def convolved (b : Board) (rule : Rule) : Board :=
  tabulate b.height b.width fun y x =>
    let sum : Int := b.neighborSum y x
    if (b.cell y x = 0 ∧ sum ∈ rule.birth) ∨ (b.cell y x = 1 ∧ sum ∈ rule.survival) then 1 else 0

end Board

/-- A board under a rule, with the boards that recorded steps left behind. -/
structure Reference where
  rule : Rule
  board : Board
  generation : Nat
  history : Array Board

namespace Reference

def ofBoard (board : Board) (rule : Rule) : Reference := ⟨rule, board, 0, #[]⟩

def record (r : Reference) : Reference := { r with history := r.history.push r.board }

def step (r : Reference) (recording : Bool) : Reference :=
  let r := if recording then r.record else r
  { r with board := r.board.convolved r.rule, generation := r.generation + 1 }

def steps (recording : Bool) : Nat → Reference → Reference
  | 0, r => r
  | n + 1, r => steps recording n (r.step recording)

/-- A recorded run also records the board that it ends with. -/
def run (r : Reference) (n : Nat) (recording : Bool) : Reference :=
  let r := steps recording n r
  if recording then r.record else r

end Reference

end SubstitutionAutomata
