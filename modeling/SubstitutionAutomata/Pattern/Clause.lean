import SubstitutionAutomata.Text.Quoted

/-! Clauses: written regular expressions, each with the rule it stands for. -/

namespace SubstitutionAutomata

open Text

/-- The written expression of one rule, the rule itself, and the captures that the shared template
writes back. -/
structure Clause where
  pattern : String
  source : String
  captures : List String
  deriving DecidableEq, Repr

/-- Why a rule has no clause. -/
inductive Clause.Error where
  | cellCount (count : Nat)
  | narrowStride (stride : Int)
  /-- No cell of the window holds the value that its centre changes to. -/
  | nothingToCopy (label target : String)
  | missing (wanted : String) (values : List String)
  deriving DecidableEq, Repr

def Clause.Error.message : Clause.Error → String
  | cellCount count => s!"Neighbourhood must have 9 cells, got {count}"
  | narrowStride stride => s!"Stride {stride} is narrower than the 3-cell window"
  | nothingToCopy label target => s!"No neighbour of {label} holds {quoted target} to copy"
  | missing wanted values =>
    let listing := String.join values
    s!"{quoted wanted} is missing from listing {quoted listing}"

end SubstitutionAutomata
