import SubstitutionAutomata.Machine.Clause
import SubstitutionAutomata.Machine.Definition
import SubstitutionAutomata.Pattern.Alternation

/-! The pattern of a machine: one clause for every transition, and a template that puts a whole head
record together from the captures of the clause that matched. -/

namespace SubstitutionAutomata.Definition

open Regex

def transitionClauses (states symbols : List String) :
    Nat → List Transition → Except Clause.Error (List Clause)
  | _, [] => .ok []
  | index, t :: rest =>
    match t.clause states symbols index with
    | .error e => .error e
    | .ok clause => match transitionClauses states symbols (index + 1) rest with
      | .error e => .error e
      | .ok clauses => .ok (clause :: clauses)

def clauses (d : Definition) : Except Clause.Error (List Clause) :=
  transitionClauses d.states d.symbols 0 d.transitions

/-- References to all captures whose names start alike. -/
def references (clauses : List Clause) (start : String) : String :=
  String.join ((clauses.flatMap Clause.captures).filter (·.startsWith start) |>.map
    Template.reference)

/-- What the head leaves to its left, the record with its new state and cursor, and what the head
leaves to its right. -/
def template (d : Definition) (clauses : List Clause) : String :=
  let mark := headMark.toString
  references clauses "new_left_" ++ Template.escape (mark ++ d.listing ++ "-") ++
    references clauses "new_state_" ++ ":" ++ references clauses "new_cursor_" ++
    Template.escape mark ++ references clauses "new_right_"

def pattern (d : Definition) : Except Pattern.Error Pattern :=
  match d.clauses with
  | .error e => .error (.clause e)
  | .ok clauses => (Pattern.ofClauses clauses (d.template clauses)).mapError .expression

end SubstitutionAutomata.Definition
