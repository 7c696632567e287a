/-! Boards: rectangles of cells, each a natural number. Main statements: a board is determined by
its shape and its cells, and cells outside it count as 0. -/

namespace SubstitutionAutomata

def addUp (ns : List Nat) : Nat := ns.foldr (· + ·) 0

theorem addUp_cons (n : Nat) (ns : List Nat) : addUp (n :: ns) = n + addUp ns := rfl

/-- A board of `height` rows of `width` cells. A cell is dead if it is 0. -/
structure Board where
  height : Nat
  width : Nat
  cells : Vector (Vector Nat width) height
  deriving Repr

namespace Board

/-- The cell in a row and a column; 0 outside the board. -/
def cell (b : Board) (y x : Nat) : Nat := ((b.cells[y]?).bind (·[x]?)).getD 0

def tabulate (height width : Nat) (f : Nat → Nat → Nat) : Board :=
  ⟨height, width, .ofFn fun y => .ofFn fun x => f y x⟩

def rows (b : Board) : List (List Nat) := b.cells.toList.map Vector.toList

/-- The board with the given rows; cells that a row lacks are 0, and cells past `width` are cut. -/
def ofRows (width : Nat) (rows : List (List Nat)) : Board :=
  tabulate rows.length width fun y x => (rows.getD y []).getD x 0

def blank (height width : Nat) : Board := tabulate height width fun _ _ => 0

/-- A length below zero. -/
structure NegativeSize where
  deriving DecidableEq, Repr

def NegativeSize.message (_ : NegativeSize) : String := "negative dimensions are not allowed"

def blank? (height width : Int) : Except NegativeSize Board :=
  if height < 0 ∨ width < 0 then .error {} else .ok (blank height.toNat width.toNat)

/-- The sum of all cells. -/
def total (b : Board) : Nat := addUp (b.rows.map addUp)

theorem cell_tabulate (height width : Nat) (f : Nat → Nat → Nat) (y x : Nat) :
    (tabulate height width f).cell y x = if y < height ∧ x < width then f y x else 0 := by
  change (((Vector.ofFn fun y : Fin height => Vector.ofFn fun x : Fin width => f y x)[y]?).bind
    (·[x]?)).getD 0 = _
  by_cases hy : y < height <;> by_cases hx : x < width <;> simp [hy, hx]

theorem ext_cell (a b : Board) (hh : a.height = b.height) (hw : a.width = b.width)
    (hc : ∀ y x, y < a.height → x < a.width → a.cell y x = b.cell y x) : a = b := by
  obtain ⟨h, w, cs⟩ := a
  obtain ⟨h', w', ds⟩ := b
  cases hh
  cases hw
  congr 1
  apply Vector.ext
  intro y hy
  apply Vector.ext
  intro x hx
  simpa [cell, hy, hx] using hc y x hy hx

end Board

/-- Cells that are either a board or a bare row. -/
inductive CellArray where
  | row (cells : List Nat)
  | board (b : Board)
  deriving Repr

namespace CellArray

/-- A bare row has no height and width. -/
structure ShapeError where
  deriving DecidableEq, Repr

def ShapeError.message (_ : ShapeError) : String :=
  "not enough values to unpack (expected 2, got 1)"

/-- The lengths along each axis. -/
def shape : CellArray → String
  | row cells => s!"({cells.length},)"
  | board b => s!"({b.height}, {b.width})"

def board? : CellArray → Except ShapeError Board
  | row _ => .error {}
  | board b => .ok b

end CellArray

end SubstitutionAutomata
