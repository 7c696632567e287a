import SubstitutionAutomata.Life.Neighborhood
import SubstitutionAutomata.Pattern.Clause
import SubstitutionAutomata.Regex.Printer

/-! The clause of a window. It matches the centre, with the rest of the window in a look-behind and
a look-ahead, and captures a cell that already holds what the centre changes to. -/

namespace SubstitutionAutomata.Neighborhood

open Regex

/-- What the centre changes to: live if it is dead, else dead. -/
def target (cells : Neighborhood) : String := if cells[center]? = some dead then live else dead

/-- The first cell beside the centre that holds the target. -/
def source? (cells : Neighborhood) : Option Nat :=
  (List.range cells.length).find? fun i => i ≠ center && cells[i]? = some cells.target

def captureName (index : Nat) : String := s!"replace_{index}"

/-- The cell at an index, inside the capture if it is the one to copy. -/
def cellItems (cells : Neighborhood) (name : String) (i : Nat) : List Regex :=
  let text := (cells.getD i "").toList
  if cells.source? = some i then [.capture name (.literal text)] else text.map .char

/-- The cells between the end of one row of the window and the start of the next. -/
def gap (stride : Int) : Regex := .group (.anyTimes (stride - 3).toNat)

/-- The all-live window holds no dead cell, so the next dead cell of its line is captured. -/
def scanItems (cells : Neighborhood) (name : String) : List Regex :=
  if cells.source?.isSome then [] else [.lazyAny, .capture name (.literal dead.toList)]

def regex (cells : Neighborhood) (stride : Int) (name : String) : Regex :=
  let row := fun indices : List Nat => indices.flatMap (cells.cellItems name)
  let before := concat (row [0, 1, 2] ++ gap stride :: row [3])
  let after := concat (row [5] ++ gap stride :: row [6, 7, 8] ++ cells.scanItems name)
  concat (.behind (before.width.getD 0) before :: row [4] ++ [.ahead after])

/-- The clause with capture number `index`, for buffers whose rows are `stride` apart. -/
def clause (cells : Neighborhood) (stride : Int) (index : Nat) : Except Clause.Error Clause :=
  if cells.length ≠ size then .error (.cellCount cells.length)
  else if stride < 3 then .error (.narrowStride stride)
  else if cells.source?.isNone && cells.target ≠ dead then
    .error (.nothingToCopy cells.label cells.target)
  else
    let name := captureName index
    .ok ⟨toString (cells.regex stride name), cells.label, [name]⟩

end SubstitutionAutomata.Neighborhood
