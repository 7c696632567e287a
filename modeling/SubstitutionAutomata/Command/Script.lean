import SubstitutionAutomata.Command.Path
import SubstitutionAutomata.Engine.Life
import SubstitutionAutomata.Engine.Machine
import SubstitutionAutomata.Render.Image
import SubstitutionAutomata.Text.Numeral
import SubstitutionAutomata.Text.Utf8

/-! Scripts: what a command does to the world, step by step, and how it goes on after each answer.
-/

namespace SubstitutionAutomata.Command

open Text

/-- A file operation that the system refuses, with the system's number and reason. -/
structure FileError where
  code : Nat
  reason : String
  path : String
  deriving DecidableEq, Repr

namespace FileError

def message (e : FileError) : String := s!"[Errno {e.code}] {e.reason}: {quoted e.path}"

def missing (path : String) : FileError := ⟨2, "No such file or directory", path⟩

def occupied (path : String) : FileError := ⟨17, "File exists", path⟩

def notDirectory (path : String) : FileError := ⟨20, "Not a directory", path⟩

def directory (path : String) : FileError := ⟨21, "Is a directory", path⟩

end FileError

/-- A size that nothing can have. -/
inductive SizeError where
  | negative (e : Board.NegativeSize)
  /-- An index cannot count so many copies of a text. -/
  | uncountable
  deriving DecidableEq, Repr

def SizeError.message : SizeError → String
  | negative e => e.message
  | uncountable => "cannot fit 'int' into an index-sized integer"

/-- What ends a command that has no message for it. -/
inductive Failure where
  | encoding (e : Utf8Fault)
  | file (e : FileError)
  | definition (e : Definition.Error)
  | life (e : LifeEngine.Error)
  | machine (e : MachineEngine.Error)
  | template (e : Regex.Template.Fault)
  | size (e : SizeError)
  | fileExtension (extension : String)
  deriving Repr

def Failure.message : Failure → String
  | encoding e => e.message
  | file e => e.message
  | definition e => e.message
  | life e => e.message
  | machine e => e.message
  | template e => e.message
  | size e => e.message
  | fileExtension extension => s!"unknown file extension: {extension}"

inductive Content where
  | text (s : String)
  | animation (frames : List Image)
  deriving Repr

inductive Script where
  | exit (code : Nat)
  | crash (failure : Failure)
  | print (text : String) (next : Unit → Script)
  | log (line : String) (next : Unit → Script)
  /-- Waits. The answer is whether the user interrupted the wait; one that is refused ends the
  script. -/
  | pause (duration : Seconds) (next : Bool → Script)
  | read (path : String) (next : Except FileError (List UInt8) → Script)
  /-- Writes a file, after the directories that lead to it. -/
  | write (path : String) (content : Content) (next : Option FileError → Script)
  /-- Saves frames as an animation. If they cannot be saved, the script ends. -/
  | save (path : String) (frames : List Image) (next : Unit → Script)
  /-- Asks for the current time. -/
  | time (next : String → Script)

namespace Script

def printLine (line : String) (next : Unit → Script) : Script := .print (line ++ "\n") next

/-- Says why and ends with exit code 1. -/
def fail (line : String) : Script := printLine line fun _ => .exit 1

/-- A line of the log, if one is asked for. -/
def debug (verbose : Bool) (source line : String) (next : Unit → Script) : Script :=
  if verbose then .log s!"DEBUG regex_automata.{source}: {line}\n" next else next ()

/-- Reads a text; a file that cannot be opened is left to the caller. -/
def readText (path : String) (refused : FileError → Script) (next : String → Script) : Script :=
  .read path fun
    | .error e => refused e
    | .ok bytes => match decodeUtf8 bytes with
      | .error e => .crash (.encoding e)
      | .ok text => next text

def writeFile (path : String) (content : Content) (next : Unit → Script) : Script :=
  .write path content fun
    | some e => .crash (.file e)
    | none => next ()

end Script

end SubstitutionAutomata.Command
