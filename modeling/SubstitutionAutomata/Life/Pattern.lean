import SubstitutionAutomata.Life.Window
import SubstitutionAutomata.Pattern.Alternation

/-! The pattern of a rule: one clause for every window whose centre changes. -/

namespace SubstitutionAutomata

open Regex

namespace Rule

/-- The clauses of some windows, numbered from `index` on; the first window without one decides. -/
def windowClauses (stride : Int) : Nat → List Neighborhood → Except Clause.Error (List Clause)
  | _, [] => .ok []
  | index, cells :: rest =>
    match cells.clause stride index with
    | .error e => .error e
    | .ok clause => match windowClauses stride (index + 1) rest with
      | .error e => .error e
      | .ok clauses => .ok (clause :: clauses)

def clauses (rule : Rule) (stride : Int) : Except Clause.Error (List Clause) :=
  windowClauses stride 0 rule.changingNeighborhoods

/-- References to the captures of all clauses; those of clauses that did not match are empty. -/
def template (clauses : List Clause) : String :=
  String.join (clauses.flatMap fun c => c.captures.map Template.reference)

def pattern (rule : Rule) (stride : Int) : Except Pattern.Error Pattern :=
  match rule.clauses stride with
  | .error e => .error (.clause e)
  | .ok clauses => (Pattern.ofClauses clauses (template clauses)).mapError .expression

end Rule

end SubstitutionAutomata
