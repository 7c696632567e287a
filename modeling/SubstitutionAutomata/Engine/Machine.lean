import SubstitutionAutomata.Engine.Basic
import SubstitutionAutomata.Machine.Pattern
import SubstitutionAutomata.Machine.Tape

/-! Engines that run a machine on a tape. -/

namespace SubstitutionAutomata

structure MachineEngine where
  tape : Tape
  engine : Engine

namespace MachineEngine

inductive Error where
  | tape (e : Tape.Error)
  | pattern (e : Pattern.Error)
  deriving DecidableEq, Repr

def Error.message : Error → String
  | tape e => e.message
  | pattern e => e.message

/-- The engine with a content on its tape; strictly, the content holds known symbols only. -/
def ofContent (tape : Tape) (content : String) (strict : Bool) : Except Error MachineEngine :=
  let buffer := if strict then tape.encodeStrict content "" else .ok (tape.encode content "")
  match buffer with
  | .error e => .error (.tape e)
  | .ok buffer => match tape.definition.pattern with
    | .error e => .error (.pattern e)
    | .ok pattern => .ok ⟨tape, .ofBuffer pattern buffer⟩

def head (e : MachineEngine) : Except Tape.Error Configuration := e.tape.decode e.engine.buffer

/-- What a settled machine reports beside its steps: its state, and whether a halt in it is
accepting. A machine that did not halt has no verdict. -/
structure Verdict where
  state : String
  accepted : Option Bool
  deriving DecidableEq, Repr

def verdict (e : MachineEngine) (halted : Bool) : Except Tape.Error Verdict :=
  match e.head with
  | .error err => .error err
  | .ok c => .ok ⟨c.state, if halted then e.tape.definition.isAccepting c.state else none⟩

end MachineEngine

end SubstitutionAutomata
