import SubstitutionAutomata.Command.Grammar
import SubstitutionAutomata.Inspection.Record
import SubstitutionAutomata.Machine.Preset
import SubstitutionAutomata.Machine.Tape
import SubstitutionAutomata.Render.Glyph

/-! The commands and their arguments. -/

namespace SubstitutionAutomata.Command

open Text

/-- Where a machine comes from: a file of transitions, or else a preset. -/
structure MachineSource where
  preset : String
  rules : Option String
  accepting : List String
  tapeLength : Int
  deriving Repr

structure LifeArguments where
  board : String
  rule : String
  generations : Option Int
  renderer : Option Board.Renderer
  pause : Seconds
  bordered : Bool
  inspect : Option String
  animation : Option String
  cellSize : Int
  deriving Repr

structure MachineArguments where
  source : MachineSource
  input : Option String
  strict : Bool
  maxSteps : Option Int
  pause : Seconds
  quiet : Bool
  inspect : Option String
  deriving Repr

/-- What an inspection compiles: a rule for a board, given or blank, or a machine. -/
inductive Target where
  | life (rule : String) (board : Option String) (width height : Int) (bordered : Bool)
  | machine (source : MachineSource)
  deriving Repr

structure InspectArguments where
  target : Target
  output : String
  format : Pattern.Format
  deriving Repr

structure CompareArguments where
  board : String
  rule : String
  generations : Int
  deriving Repr

inductive Invocation where
  | life (a : LifeArguments)
  | machine (a : MachineArguments)
  | inspect (a : InspectArguments)
  | compare (a : CompareArguments)
  deriving Repr

def program : String := "regex-automata"

def helpOption : OptionSpec := ⟨["-h", "--help"], .help⟩

def mainGrammar : Grammar where
  program := program
  options := [helpOption, ⟨["-v", "--verbose"], .flag⟩]
  positional := some ⟨"command", ["life", "machine", "inspect", "compare"], true, false⟩
  rivals := []

def lifeGrammar : Grammar where
  program := s!"{program} life"
  options := [helpOption, ⟨["-r", "--rule"], .text⟩, ⟨["-g", "--generations"], .integer⟩,
    ⟨["--render"], .choice ["block", "braille", "none"]⟩, ⟨["--delay"], .seconds⟩,
    ⟨["--unbordered"], .flag⟩, ⟨["--inspect"], .text⟩, ⟨["--gif"], .text⟩,
    ⟨["--cell-size"], .integer⟩]
  positional := some ⟨"board", [], false, true⟩
  rivals := []

def sourceOptions : List OptionSpec :=
  [⟨["--preset"], .choice Preset.names⟩, ⟨["--rules"], .text⟩, ⟨["--accept"], .text⟩,
    ⟨["--tape-length"], .integer⟩]

def sourceRivals : List (String × String) := [("--preset", "--rules")]

def machineGrammar : Grammar where
  program := s!"{program} machine"
  options := helpOption :: sourceOptions ++ [⟨["-i", "--input"], .text⟩, ⟨["--strict"], .flag⟩,
    ⟨["--max-steps"], .integer⟩, ⟨["--delay"], .seconds⟩, ⟨["-q", "--quiet"], .flag⟩,
    ⟨["--inspect"], .text⟩]
  positional := none
  rivals := sourceRivals

def inspectGrammar : Grammar where
  program := s!"{program} inspect"
  options := [helpOption, ⟨["-o", "--output"], .text⟩, ⟨["--format"], .choice ["text", "json"]⟩,
    ⟨["-r", "--rule"], .text⟩, ⟨["--board"], .text⟩, ⟨["--width"], .integer⟩,
    ⟨["--height"], .integer⟩, ⟨["--unbordered"], .flag⟩] ++ sourceOptions
  positional := some ⟨"target", ["life", "machine"], false, true⟩
  rivals := sourceRivals

def compareGrammar : Grammar where
  program := s!"{program} compare"
  options := [helpOption, ⟨["-r", "--rule"], .text⟩, ⟨["-g", "--generations"], .integer⟩]
  positional := some ⟨"board", [], false, true⟩
  rivals := []

def defaultRule : String := "B3/S23"

def noPause : Seconds := .decimal false 0 0

namespace Parsed

/-- The text given for an option, unless it is empty. -/
def nonempty? (p : Parsed) (key : String) : Option String :=
  (p.text? key).filter fun s => !s.isEmpty

def first (p : Parsed) : String := (p.positional.bind List.head?).getD ""

def rule (p : Parsed) : String := (p.text? "--rule").getD defaultRule

def pause (p : Parsed) : Seconds := (p.seconds? "--delay").getD noPause

def source (p : Parsed) : MachineSource :=
  ⟨(p.text? "--preset").getD "duplicate", p.nonempty? "--rules", p.texts "--accept",
    (p.integer? "--tape-length").getD Tape.defaultLength⟩

def life (p : Parsed) : LifeArguments where
  board := p.first
  rule := p.rule
  generations := p.integer? "--generations"
  renderer := Board.Renderer.ofName? ((p.text? "--render").getD "block")
  pause := p.pause
  bordered := !p.isSet "--unbordered"
  inspect := p.nonempty? "--inspect"
  animation := p.nonempty? "--gif"
  cellSize := (p.integer? "--cell-size").getD 4

def machine (p : Parsed) : MachineArguments where
  source := p.source
  input := p.text? "--input"
  strict := p.isSet "--strict"
  maxSteps := p.integer? "--max-steps"
  pause := p.pause
  quiet := p.isSet "--quiet"
  inspect := p.nonempty? "--inspect"

def target (p : Parsed) : Target :=
  if p.first = "life" then
    .life p.rule (p.nonempty? "--board") ((p.integer? "--width").getD 10)
      ((p.integer? "--height").getD 10) (!p.isSet "--unbordered")
  else .machine p.source

def inspect (p : Parsed) : InspectArguments where
  target := p.target
  output := (p.text? "--output").getD Pattern.listingFile
  format := if p.text? "--format" = some "json" then .json else .text

def compare (p : Parsed) : CompareArguments where
  board := p.first
  rule := p.rule
  generations := (p.integer? "--generations").getD 20

end Parsed

/-- A command with its own arguments. Arguments that belong to nothing are refused at the very end.
-/
def readCommand (name : String) (arguments : List String) :
    Except Halt (Invocation × List String) :=
  let read := fun (g : Grammar) (invocation : Parsed → Invocation) =>
    (g.parse arguments).map fun p => (invocation p, p.extras)
  if name = "life" then read lifeGrammar fun p => .life p.life
  else if name = "machine" then read machineGrammar fun p => .machine p.machine
  else if name = "inspect" then read inspectGrammar fun p => .inspect p.inspect
  else read compareGrammar fun p => .compare p.compare

/-- What a command line asks for, if anything, and whether it asks for a log as well. -/
def readArguments (arguments : List String) : Except Halt (Bool × Option Invocation) := do
  let p ← mainGrammar.parse arguments
  let (invocation, extras) ← match p.positional with
    | some (name :: rest) => (readCommand name rest).map fun (i, extras) => (some i, extras)
    | _ => .ok (none, [])
  match p.extras ++ extras with
  | [] => .ok (p.isSet "--verbose", invocation)
  | extras => .error (.refused program (.unrecognized extras))

end SubstitutionAutomata.Command
