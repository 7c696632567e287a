import SubstitutionAutomata.Machine.Definition

/-! Configurations: the tape around the head, and the moves of a machine on it. -/

namespace SubstitutionAutomata

open Text

/-- The tape to the left of the head, the state, the text under the head, the tape to the right. -/
structure Configuration where
  left : String
  state : String
  cursor : String
  right : String
  deriving DecidableEq, Repr

namespace Configuration

/-- The index of the head on the plain tape. -/
def position (c : Configuration) : Nat := c.left.length

/-- The plain tape, without the head. -/
def tape (c : Configuration) : String := c.left ++ c.cursor ++ c.right

/-- Moves the head to the right, onto a word character. -/
def moveRight? (c : Configuration) (t : Transition) : Option Configuration :=
  match c.right.toList with
  | x :: rest =>
    if isWord x then some ⟨c.left ++ t.written, t.next, x.toString, String.ofList rest⟩ else none
  | [] => none

/-- Moves the head to the left, onto a word character. -/
def moveLeft? (c : Configuration) (t : Transition) : Option Configuration :=
  match c.left.toList.getLast? with
  | some x =>
    if isWord x then
      some ⟨String.ofList c.left.toList.dropLast, t.next, x.toString, t.written ++ c.right⟩
    else none
  | none => none

/-- One transition. There is none if the table has no entry, or the head would leave the tape or
enter a cell that is no word character. -/
def step? (d : Definition) (c : Configuration) : Option Configuration :=
  match d.transition? c.state c.cursor with
  | none => none
  | some t => if t.direction = .right then c.moveRight? t else c.moveLeft? t

/-- At most `limit` transitions; the configuration reached, and how many transitions led to it. -/
def run (d : Definition) (limit : Nat) (c : Configuration) (steps : Nat) : Configuration × Nat :=
  match limit with
  | 0 => (c, steps)
  | limit + 1 => match c.step? d with
    | none => (c, steps)
    | some c => run d limit c (steps + 1)

end Configuration

end SubstitutionAutomata
