import SubstitutionAutomata.Board.File
import SubstitutionAutomata.Command.Invocation
import SubstitutionAutomata.Command.Script

/-! The life command: shows the generations of a board, and may save them as an animation. -/

namespace SubstitutionAutomata.Command

open Script

def withRule (text : String) (next : Rule → Script) : Script :=
  match Rule.parse text with
  | .error e => fail s!"Error parsing rule '{text}': {e.message}"
  | .ok rule => next rule

def withBoard (path : String) (next : Board → Script) : Script :=
  let refuse := fun message => fail s!"Error loading board '{path}': {message}"
  readText (Path.normal path) (fun e => refuse e.message) fun text =>
    match Board.ofText text with
    | .error e => refuse e.message
    | .ok board => next board

/-- The engine of a rule on a board; a rule without clauses for the board's stride is reported. -/
def withLifeEngine (verbose : Bool) (board : Board) (rule : Rule) (bordered : Bool)
    (next : LifeEngine → Script) : Script :=
  match LifeEngine.ofCells (.board board) rule bordered with
  | .error (.pattern (.clause e)) => fail s!"Error compiling rule {rule}: {e.message}"
  | .error e => .crash (.life e)
  | .ok e =>
    let size := e.engine.pattern.size
    let stride := e.layout.stride
    debug verbose "pattern" s!"Compiled {size} clauses for {rule} at stride {stride}" fun _ =>
      next e

/-- Writes an inspection of a pattern; only documents tell when they were written. -/
def writeInspection (p : Pattern) (path : String) (sample : Option String)
    (format : Pattern.Format) (next : Unit → Script) : Script :=
  match format with
  | .text => writeFile (Path.normal path) (.text (p.inspection sample "" .text)) next
  | .json => .time fun time =>
    writeFile (Path.normal path) (.text (p.inspection sample time .json)) next

def inspectIf (path : Option String) (p : Pattern) (sample : String) (next : Unit → Script) :
    Script :=
  match path with
  | some path => writeInspection p path sample .text next
  | none => next ()

/-- A board and the line that counts its live cells. -/
def frameText (renderer : Board.Renderer) (generation : Nat) (board : Board) : String :=
  Board.frame (board.render renderer) true ++
    s!"Generation {generation}  Population {board.total}\n"

/-- Saves the boards shown, if an animation is asked for. -/
def saveFrames (a : LifeArguments) (boards : List Board) : Script :=
  match a.animation, boards with
  | none, _ | _, [] => .exit 0
  | some path, boards => match Image.ofBoards boards a.cellSize with
    | .error e => .crash (.size (.negative e))
    | .ok frames => .save path frames fun _ =>
      printLine s!"Saved animation to: {path}" fun _ => .exit 0

def pauseIf (duration : Text.Seconds) (interrupted next : Unit → Script) : Script :=
  if duration.isZero then next ()
  else .pause duration fun stopped =>
    if stopped then printLine "" interrupted else next ()

/-- Shows every visit of a run; an interruption ends it like its last generation. -/
def showRun (a : LifeArguments) (layout : Layout) : Engine.Course Unit → List Board → Script
  | .done _ (), shown => saveFrames a shown.reverse
  | .broken _ fault, _ => .crash (.template fault)
  | .visit e next, shown => match layout.decode e.buffer with
    | .error err => .crash (.life (.layout err))
    | .ok board =>
      let shown := if a.animation.isSome then board :: shown else []
      let rest := fun _ : Unit => pauseIf a.pause (fun _ => saveFrames a shown.reverse)
        fun _ => showRun a layout (next ()) shown
      match a.renderer with
      | some renderer => .print (frameText renderer e.generation board) rest
      | none => rest ()

def life (verbose : Bool) (a : LifeArguments) : Script :=
  withRule a.rule fun rule => withBoard a.board fun board =>
    withLifeEngine verbose board rule a.bordered fun e =>
      inspectIf a.inspect e.engine.pattern e.engine.buffer fun _ =>
        showRun a e.layout (e.engine.run false (Engine.generations a.generations)) []

end SubstitutionAutomata.Command
