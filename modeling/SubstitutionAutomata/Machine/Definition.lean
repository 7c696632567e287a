import SubstitutionAutomata.Machine.Transition
import SubstitutionAutomata.Text.Lines

/-! Machine definitions: a list of transitions with the states and symbols that they mention. -/

namespace SubstitutionAutomata

open Text

/-- The first occurrence of every value, in order. -/
def firstSeen {α : Type} [BEq α] : List α → List α
  | [] => []
  | a :: rest => a :: (firstSeen rest).filter (fun b => !(b == a))

/-- Transitions in the order of their lines. Accepting states are optional: without any, a halt is
neither accepting nor stuck. -/
structure Definition where
  lines : List String
  transitions : List Transition
  accepting : List String
  transitions_ne_nil : transitions ≠ []
  deriving DecidableEq

namespace Definition

inductive Error where
  | malformed (e : Transition.Malformed)
  | noTransition
  deriving DecidableEq, Repr

def Error.message : Error → String
  | malformed e => e.message
  | noTransition => "A machine definition needs at least one transition"

def ofLines (lines : List String) (accepting : List String) : Except Error Definition :=
  match lines.mapM Transition.parse with
  | .error e => .error (.malformed e)
  | .ok [] => .error .noTransition
  | .ok (t :: ts) => .ok ⟨lines, t :: ts, firstSeen accepting, by simp⟩

/-- A text holds one transition per line. -/
def ofText (text : String) (accepting : List String) : Except Error Definition :=
  ofLines (Text.lines text) accepting

/-- The states in the order in which they are first mentioned, on a line the state before the next
one. -/
def states (d : Definition) : List String :=
  firstSeen (d.transitions.flatMap fun t => [t.state, t.next])

/-- The symbols in the order in which they are first mentioned, on a line the one read before the
one written. -/
def symbols (d : Definition) : List String :=
  firstSeen (d.transitions.flatMap fun t => [t.symbol, t.written])

def initialState (d : Definition) : String := (d.transitions.head d.transitions_ne_nil).state

/-- Of several transitions for a state and a symbol the first one counts. -/
def table (d : Definition) : List ((String × String) × Transition) :=
  let keys := firstSeen (d.transitions.map fun t => (t.state, t.symbol))
  keys.filterMap fun key =>
    (d.transitions.find? fun t => (t.state, t.symbol) = key).map fun t => (key, t)

def transition? (d : Definition) (state symbol : String) : Option Transition :=
  d.transitions.find? fun t => t.state = state && t.symbol = symbol

/-- Whether a halt in a state is accepting, if accepting states are declared. -/
def isAccepting (d : Definition) (state : String) : Option Bool :=
  if d.accepting.isEmpty then none else some (d.accepting.contains state)

def acceptingSorted (d : Definition) : List String := d.accepting.mergeSort (· ≤ ·)

/-- All states and all symbols, as every head record lists them. -/
def listing (d : Definition) : String :=
  let states := String.join d.states
  let symbols := String.join d.symbols
  s!"{states}:{symbols}"

end Definition

end SubstitutionAutomata
