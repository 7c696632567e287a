import SubstitutionAutomata.Inspection.Json
import SubstitutionAutomata.Inspection.Listing

/-! What an inspection of a pattern writes: a listing, or a document with all clauses. -/

namespace SubstitutionAutomata.Pattern

inductive Format where
  | text
  | json
  deriving DecidableEq, Repr

/-- A format that no inspection has. -/
structure Format.Unknown where
  name : String
  deriving DecidableEq, Repr

def Format.Unknown.message (e : Format.Unknown) : String :=
  s!"Unknown inspection format {Text.quoted e.name}"

def Format.ofName (name : String) : Except Format.Unknown Format :=
  if name = "json" then .ok json else if name = "text" then .ok text else .error ⟨name⟩

def version : String := "1.0"

def clauseRecord (c : Clause) : Document :=
  .fields [("pattern", .text c.pattern), ("source", .text c.source),
    ("captures", .list (c.captures.map .text))]

/-- The document of a pattern, written at the given time. -/
def record (p : Pattern) (sample : Option String) (time : String) : Document :=
  .fields [("version", .text version), ("generated_at", .text time),
    ("clauses", .list (p.clauses.map clauseRecord)), ("template", .text p.template),
    ("example", (sample.map .text).getD .null)]

def inspection (p : Pattern) (sample : Option String) (time : String) : Format → String
  | .text => p.listingText sample
  | .json => toString (p.record sample time)

end SubstitutionAutomata.Pattern
