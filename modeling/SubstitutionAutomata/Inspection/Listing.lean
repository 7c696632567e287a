import SubstitutionAutomata.Pattern.Alternation

/-! Patterns listed for a reader: one clause per line beside the rule it stands for. -/

namespace SubstitutionAutomata.Pattern

/-- Where the listing is written unless another place is asked for. -/
def listingFile : String := "mega_regex.txt"

def longestClause (p : Pattern) : Nat := (p.clauses.map fun c => c.pattern.length).foldl max 0

/-- The sources of all clauses start in one column, three places after the longest clause. -/
def clauseLine (column : Nat) (c : Clause) : String :=
  let gap := String.ofList (List.replicate (column - c.pattern.length) ' ')
  s!"{c.pattern}{gap} # {c.source}"

def listing (p : Pattern) (sample : Option String) : List String :=
  "Regex Clauses:" :: p.clauses.map (clauseLine (p.longestClause + 3)) ++
    ["", "Replace Regex:", p.template] ++
    match sample with
    | some buffer => ["", "Initial Tape:", buffer]
    | none => []

def listingText (p : Pattern) (sample : Option String) : String :=
  String.join ((p.listing sample).map (· ++ "\n"))

end SubstitutionAutomata.Pattern
