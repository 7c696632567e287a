import SubstitutionAutomata.Command.Script
import SubstitutionAutomata.Command.Store

/-! Systems: the clock, the waits and the saving of animations that a script finds, and what the
script does on them. Which waits and animations a system refuses, and why, is left to the system. -/

namespace SubstitutionAutomata.Command

open Text

/-- How a wait ends. -/
inductive Pause (φ : Type) where
  | elapsed
  | interrupted
  | refused (reason : φ)

/-- What stands outside a program. It may refuse waits and animations, for reasons of its own. -/
structure System (φ : Type) where
  now : String
  /-- How a wait ends; the waits are numbered from 1. -/
  pause : Nat → Seconds → Pause φ
  /-- What the files are after frames are saved under a path, and why that fails, if it does. The
  directories that lead to the path are made with it. -/
  save : Store → String → List Image → Store × Option φ

/-- What a script has done so far. -/
structure Transcript where
  output : String
  log : String
  pauses : Nat
  store : Store

/-- Why a script crashes: for a failure of its own, or for a reason of the system. -/
inductive Cause (φ : Type) where
  | own (failure : Failure)
  | system (reason : φ)

inductive Ending (ε : Type := Failure) where
  | exit (code : Nat)
  | crash (cause : ε)

def Ending.map {ε ε' : Type} (f : ε → ε') : Ending ε → Ending ε'
  | exit code => .exit code
  | crash cause => .crash (f cause)

/-- What a script does on a system, and how it ends. -/
def Script.run {φ : Type} (system : System φ) : Script → Transcript → Transcript × Ending (Cause φ)
  | .exit code, t => (t, .exit code)
  | .crash failure, t => (t, .crash (.own failure))
  | .print text next, t => (next ()).run system { t with output := t.output ++ text }
  | .log line next, t => (next ()).run system { t with log := t.log ++ line }
  | .pause duration next, t =>
    let after := { t with pauses := t.pauses + 1 }
    match system.pause after.pauses duration with
    | .elapsed => (next false).run system after
    | .interrupted => (next true).run system after
    | .refused reason => (after, .crash (.system reason))
  | .read path next, t => (next (t.store.read path)).run system t
  | .write path content next, t => match t.store.write path content with
    | .error e => (next (some e)).run system t
    | .ok store => (next none).run system { t with store := store }
  | .save path frames next, t => match system.save t.store path frames with
    | (store, none) => (next ()).run system { t with store := store }
    | (store, some reason) => ({ t with store := store }, .crash (.system reason))
  | .time next, t => (next system.now).run system t

end SubstitutionAutomata.Command
