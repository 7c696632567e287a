import SubstitutionAutomata.Command.Compare
import SubstitutionAutomata.Command.Inspect
import SubstitutionAutomata.Command.System

/-! Command lines as scripts, and the outcome of a script on stored files. -/

namespace SubstitutionAutomata.Command

open Script

def helpText : String :=
"usage: regex-automata [-h] [-v] \x7blife,machine,inspect,compare\x7d ...

Regex automata - Game of Life and Turing machines as a single regex
substitution

positional arguments:
  \x7blife,machine,inspect,compare\x7d
                        Available commands
    life                Run Game of Life on a board file
    machine             Run a Turing machine
    inspect             Write compiled clauses to a file
    compare             Check the regex engine against the reference

options:
  -h, --help            show this help message and exit
  -v, --verbose         Debug logging
"

/-- Without a command the help is shown, and the exit code is 1. -/
def script (arguments : List String) : Script :=
  match readArguments arguments with
  | .error .help => .print helpText fun _ => .exit 0
  | .error (.refused program reason) =>
    .log s!"{program}: error: {reason.message}\n" fun _ => .exit 2
  | .ok (_, none) => .print helpText fun _ => .exit 1
  | .ok (verbose, some (.life a)) => life verbose a
  | .ok (verbose, some (.machine a)) => machine verbose a
  | .ok (verbose, some (.inspect a)) => inspect verbose a
  | .ok (verbose, some (.compare a)) => compare verbose a

/-- Files in a store and waits that are over at once, but for the one with number `interruptAt`, if
any. Animations are saved under names that end in .gif. -/
def System.stored (interruptAt : Option Nat) (now : String) : System Failure where
  now := now
  pause number _ := if interruptAt = some number then .interrupted else .elapsed
  save store path frames :=
    if Path.extension path = ".gif" then
      match store.write path (.animation (Image.mergeRepeats frames)) with
      | .error e => (store, some (.file e))
      | .ok store => (store, none)
    else (store, some (.fileExtension (Path.extension path)))

def Cause.failure : Cause Failure → Failure
  | own failure | system failure => failure

/-- What a script does on stored files, and how it ends there. -/
def Script.outcome (interruptAt : Option Nat) (now : String) (s : Script) (t : Transcript) :
    Transcript × Ending :=
  let (t, ending) := s.run (.stored interruptAt now) t
  (t, ending.map Cause.failure)

end SubstitutionAutomata.Command
