import SubstitutionAutomata.Board.Layout
import SubstitutionAutomata.Engine.Basic
import SubstitutionAutomata.Life.Pattern

/-! Engines that run a rule on a board. -/

namespace SubstitutionAutomata

structure LifeEngine where
  layout : Layout
  engine : Engine

namespace LifeEngine

inductive Error where
  | shape (e : CellArray.ShapeError)
  | layout (e : Layout.Error)
  | pattern (e : Pattern.Error)
  deriving DecidableEq, Repr

def Error.message : Error → String
  | shape e => e.message
  | layout e => e.message
  | pattern e => e.message

/-- The layout with the shape of some cells. -/
def layoutOf (cells : CellArray) (bordered : Bool) : Except Error Layout :=
  match cells.board? with
  | .error e => .error (.shape e)
  | .ok b => (Layout.ofSize b.width b.height bordered).mapError .layout

def ofCells (cells : CellArray) (rule : Rule) (bordered : Bool) : Except Error LifeEngine :=
  match layoutOf cells bordered with
  | .error e => .error e
  | .ok layout => match layout.encode cells with
    | .error e => .error (.layout e)
    | .ok buffer => match rule.pattern layout.stride with
      | .error e => .error (.pattern e)
      | .ok pattern => .ok ⟨layout, .ofBuffer pattern buffer⟩

def board (e : LifeEngine) : Except Layout.Error Board := e.layout.decode e.engine.buffer

end LifeEngine

end SubstitutionAutomata
