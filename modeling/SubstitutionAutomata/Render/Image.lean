import SubstitutionAutomata.Board.Basic

/-! Boards as grey images and animations. -/

namespace SubstitutionAutomata

/-- The grey levels of an image, row by row. -/
structure Image where
  width : Nat
  rows : List (List Nat)
  deriving DecidableEq, Repr

namespace Image

def height (i : Image) : Nat := i.rows.length

def liveLevel : Nat := 255

def deadLevel : Nat := 30

/-- A cell of 1 is white, any other dark. -/
def level (n : Nat) : Nat := if n = 1 then liveLevel else deadLevel

/-- Every item so many times in a row. -/
def stretch {α : Type} (size : Nat) (items : List α) : List α :=
  items.flatMap fun a => List.replicate size a

/-- The image of a board with a square of `size` pixels for each cell. -/
def ofBoard (b : Board) (size : Nat) : Image :=
  ⟨b.width * size, stretch size (b.rows.map fun row => stretch size (row.map level))⟩

/-- The image of a board, of any size but a negative one. -/
def ofBoard? (b : Board) (size : Int) : Except Board.NegativeSize Image :=
  if b.height * size < 0 ∨ b.width * size < 0 then .error {} else .ok (ofBoard b size.toNat)

/-- The frames of some boards. -/
def ofBoards (boards : List Board) (size : Int) : Except Board.NegativeSize (List Image) :=
  boards.mapM fun b => ofBoard? b size

/-- The frames that are left in a file that shows a frame equal to the one before it only once. -/
def mergeRepeats : List Image → List Image
  | [] => []
  | [i] => [i]
  | i :: j :: rest => if i = j then mergeRepeats (j :: rest) else i :: mergeRepeats (j :: rest)

/-- What is left in such a file of the frames of some boards. -/
def animation (boards : List Board) (size : Int) : Except Board.NegativeSize (List Image) :=
  (ofBoards boards size).map mergeRepeats

end Image

end SubstitutionAutomata
