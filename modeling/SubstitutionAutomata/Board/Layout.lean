import SubstitutionAutomata.Board.Basic

/-! Boards in flat buffers. A bordered layout writes every row between dead cells and ends it with a
separator, and adds a dead row above and below; so a window around any cell of the board lies within
the buffer. A plain layout joins the rows. -/

namespace SubstitutionAutomata

structure Layout where
  width : Nat
  height : Nat
  bordered : Bool
  width_pos : 0 < width
  height_pos : 0 < height
  deriving DecidableEq, Repr

namespace Layout

inductive Error where
  | tooSmall (width height : Int)
  | wrongShape (height width : Nat) (shape : String)
  | wrongLength (length expected : Nat)
  deriving DecidableEq, Repr

def Error.message : Error → String
  | tooSmall width height => s!"Board must be at least 1x1, got {width}x{height}"
  | wrongShape height width shape => s!"Expected a {height}x{width} board, got {shape}"
  | wrongLength length expected => s!"Buffer has length {length}, expected {expected}"

def ofSize (width height : Int) (bordered : Bool) : Except Error Layout :=
  if h : 0 < width.toNat ∧ 0 < height.toNat then
    .ok ⟨width.toNat, height.toNat, bordered, h.1, h.2⟩
  else .error (.tooSmall width height)

def separator : Char := '|'

/-- The distance in the buffer between cells above each other. -/
def stride (l : Layout) : Nat := if l.bordered then l.width + 3 else l.width

def bufferLength (l : Layout) : Nat := (if l.bordered then l.height + 2 else l.height) * l.stride

def cellChar (n : Nat) : Char := if n = 0 then '0' else '1'

def borderRow (l : Layout) : List Char := List.replicate (l.width + 2) '0' ++ [separator]

def encodeRow (l : Layout) (row : List Nat) : List Char :=
  if l.bordered then '0' :: row.map cellChar ++ ['0', separator] else row.map cellChar

/-- The buffer of a board whose shape is the layout's. -/
def encodeBoard (l : Layout) (b : Board) : List Char :=
  let body := b.rows.flatMap l.encodeRow
  if l.bordered then l.borderRow ++ body ++ l.borderRow else body

def encode (l : Layout) (cells : CellArray) : Except Error String :=
  match cells with
  | .board b =>
    if b.height = l.height ∧ b.width = l.width then .ok (String.ofList (l.encodeBoard b))
    else .error (.wrongShape l.height l.width cells.shape)
  | .row _ => .error (.wrongShape l.height l.width cells.shape)

/-- Where the cell of a row and a column stands in the buffer. -/
def index (l : Layout) (y x : Nat) : Nat :=
  if l.bordered then (y + 1) * l.stride + (x + 1) else y * l.stride + x

/-- The board in a buffer of the right length; all but `1` is read as a dead cell. -/
def decode (l : Layout) (buffer : String) : Except Error Board :=
  let text := buffer.toList.toArray
  if text.size = l.bufferLength then
    .ok (.tabulate l.height l.width fun y x => if text[l.index y x]? = some '1' then 1 else 0)
  else .error (.wrongLength text.size l.bufferLength)

end Layout

end SubstitutionAutomata
