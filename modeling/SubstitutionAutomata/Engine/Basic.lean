import SubstitutionAutomata.Pattern.Alternation

/-! Engines: a buffer that one pass over it replaces in each generation. -/

namespace SubstitutionAutomata

open Regex

/-- What makes passes over a buffer: a pass gives the next buffer with the number of its
replacements, or it fails with a fault. -/
class Pass (π : Type) (φ : outParam Type) where
  apply : π → String → Except φ (String × Nat)

instance : Pass Pattern Template.Fault where
  apply := Pattern.apply

structure Engine (π : Type := Pattern) where
  pattern : π
  buffer : String
  generation : Nat
  /-- The buffers that recorded steps started from. -/
  history : Array String

namespace Engine

variable {π φ : Type}

def ofBuffer (pattern : π) (buffer : String) : Engine π := ⟨pattern, buffer, 0, #[]⟩

def record (e : Engine π) : Engine π := { e with history := e.history.push e.buffer }

/-- One generation and the number of its replacements. A recorded step records its buffer first; a
pass that fails leaves the buffer and the generation as they are. -/
def step [Pass π φ] (e : Engine π) (recording : Bool) : Engine π × Except φ Nat :=
  let e := if recording then e.record else e
  match Pass.apply e.pattern e.buffer with
  | .error fault => (e, .error fault)
  | .ok (buffer, count) => ({ e with buffer := buffer, generation := e.generation + 1 }, .ok count)

/-- What a run passes through. At every visit an observer may look at the engine, and the run goes
on only if it is asked to; so a run ends early wherever its observer leaves it. -/
inductive Course (α : Type) (π : Type := Pattern) (φ : Type := Template.Fault) where
  | done (e : Engine π) (result : α)
  | broken (e : Engine π) (fault : φ)
  | visit (e : Engine π) (next : Unit → Course α π φ)

/-- So many generations, with a visit before each of them and one after the last. -/
def run [Pass π φ] (recording : Bool) : Nat → Engine π → Course Unit π φ
  | 0, e => .visit e fun _ => .done e ()
  | n + 1, e => .visit e fun _ =>
    match e.step recording with
    | (after, .error fault) => .broken after fault
    | (after, .ok _) => run recording n after

/-- How a search for a fixpoint ended: after so many steps that changed the buffer, and with the
replacements of the step that changed nothing, if there was one. -/
structure Report where
  steps : Nat
  unchanged : Option Nat
  deriving DecidableEq, Repr

def Report.halted (r : Report) : Bool := r.unchanged.isSome

/-- Goes on until a generation leaves the buffer unchanged, for at most `limit` generations that
change it, with a visit before each generation. -/
def settle [Pass π φ] : Nat → Nat → Engine π → Course Report π φ
  | 0, steps, e => .done e ⟨steps, none⟩
  | limit + 1, steps, e => .visit e fun _ =>
    match e.step false with
    | (after, .error fault) => .broken after fault
    | (after, .ok count) =>
      if count = 0 ∨ after.buffer = e.buffer then .done after ⟨steps, some count⟩
      else settle limit (steps + 1) after

/-- An observer looks at the engine, goes on to a new state, and may give a reason to stop. -/
abbrev Observer (σ ε : Type) (π : Type := Pattern) := Engine π → σ → σ × Option ε

/-- Why a watched run ended early. -/
inductive Stop (ε : Type) (φ : Type := Template.Fault) where
  | fault (fault : φ)
  | observer (reason : ε)

/-- Where a watched run left the engine and the observer. -/
structure Watched (σ ε α : Type) (π : Type := Pattern) (φ : Type := Template.Fault) where
  engine : Engine π
  seen : σ
  result : Except (Stop ε φ) α

/-- Follows a course until it ends or the observer stops it. -/
def Course.watch {σ ε α : Type} (observe : Observer σ ε π) :
    Course α π φ → σ → Watched σ ε α π φ
  | done e result, seen => ⟨e, seen, .ok result⟩
  | broken e fault, seen => ⟨e, seen, .error (.fault fault)⟩
  | visit e next, seen => match observe e seen with
    | (seen, some reason) => ⟨e, seen, .error (.observer reason)⟩
    | (seen, none) => (next ()).watch observe seen

/-- More generations than any run lives to see, for a run that only its observer or a fixpoint ends.
-/
def endless : Nat := 18446744073709551616

/-- The number of generations that an optional limit allows; a negative limit allows none. -/
def generations (limit : Option Int) : Nat := (limit.map Int.toNat).getD endless

end Engine

end SubstitutionAutomata
