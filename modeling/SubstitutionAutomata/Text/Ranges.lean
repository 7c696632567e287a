/-! Sets of characters given as ranges of code points. -/

namespace SubstitutionAutomata.Text

/-- Whether one of the closed ranges holds the character. -/
def inRanges (ranges : List (Nat × Nat)) (c : Char) : Bool :=
  ranges.any fun (first, last) => first ≤ c.toNat && c.toNat ≤ last

end SubstitutionAutomata.Text
