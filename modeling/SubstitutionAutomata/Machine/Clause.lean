import SubstitutionAutomata.Machine.Transition
import SubstitutionAutomata.Pattern.Clause
import SubstitutionAutomata.Regex.Printer

/-! The clause of a transition. It matches a head record in the state and on the symbol of the
transition together with the cell that the head moves to, and captures what the next record holds.
-/

namespace SubstitutionAutomata

open Regex

/-- Marks both ends of a head record. -/
def headMark : Char := '#'

/-- All values in order, the wanted one inside a capture. -/
def listingItems (values : List String) (wanted name : String) : List Regex :=
  values.flatMap fun v =>
    if v = wanted then [.capture name (.literal v.toList)] else v.toList.map .char

namespace Transition

def stateCapture (index : Nat) : String := s!"new_state_{index}"

def cursorCapture (index : Nat) : String := s!"new_cursor_{index}"

/-- The capture of the written symbol, named for the side of the head where it is left. -/
def writtenCapture (t : Transition) (index : Nat) : String :=
  if t.direction = .right then s!"new_left_{index}" else s!"new_right_{index}"

/-- The head record in which the transition applies. -/
def recordItems (t : Transition) (states symbols : List String) (index : Nat) : List Regex :=
  .char headMark :: listingItems states t.next (stateCapture index) ++
    .char ':' :: listingItems symbols t.written (t.writtenCapture index) ++
    s!"-{t.state}:{t.symbol}".toList.map .char ++ [.char headMark]

def regex (t : Transition) (states symbols : List String) (index : Nat) : Regex :=
  let record := t.recordItems states symbols index
  let cell := Regex.capture (cursorCapture index) .word
  concat (if t.direction = .right then record ++ [cell] else cell :: record)

def clause (t : Transition) (states symbols : List String) (index : Nat) :
    Except Clause.Error Clause :=
  if !states.contains t.next then .error (.missing t.next states)
  else if !symbols.contains t.written then .error (.missing t.written symbols)
  else .ok ⟨toString (t.regex states symbols index), t.text,
    [stateCapture index, t.writtenCapture index, cursorCapture index]⟩

end Transition

end SubstitutionAutomata
