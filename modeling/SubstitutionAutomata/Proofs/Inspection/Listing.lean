import SubstitutionAutomata.Inspection.Listing
import SubstitutionAutomata.Proofs.Life.Compile
import SubstitutionAutomata.Proofs.Machine.Leftmost
import SubstitutionAutomata.Proofs.Machine.Pattern
import SubstitutionAutomata.Proofs.Regex.Solid
import Mathlib.Data.List.DropRight
import Mathlib.Data.List.Fold
import Mathlib.Data.List.MinMax

/-! # Listings read back

Compiled clauses are written without blanks, so the first mark between blanks on the line of a
clause ends its pattern. The lines of a listing give back all clauses, the template and the sample,
and no two patterns share a listing. -/

namespace SubstitutionAutomata

open Regex

/-! ## Cut lines -/

/-- A line is cut at its first mark between blanks. -/
structure CutsAt (line left right : List Char) : Prop where
  eq : line = left ++ (" # ".toList ++ right)
  first : ∀ before after, line = before ++ (" # ".toList ++ after) → left.length ≤ before.length

theorem CutsAt.unique {line left left' right right' : List Char} (h : CutsAt line left right)
    (h' : CutsAt line left' right') : left = left' ∧ right = right' := by
  have hlength := Nat.le_antisymm (h.first left' right' h'.eq) (h'.first left right h.eq)
  obtain ⟨hleft, htail⟩ := List.append_inj (h.eq.symm.trans h'.eq) hlength
  exact ⟨hleft, List.append_cancel_left htail⟩

section Padded

variable {s : List Char}

end Padded

/-! ## Compiled clauses -/

/-- The captures of a clause, from its number and from the rule it stands for. -/
def capturesOf (index : ℕ) (source : String) : List String :=
  match Transition.parse? source with
  | some t => t.captureNames index
  | none => [Neighborhood.captureName index]

/-- What a listing needs of the clause with a number. -/
structure Clause.Listable (c : Clause) (index : ℕ) : Prop where
  pattern : Solid c.pattern.toList
  source : Solid c.source.toList
  captures : c.captures = capturesOf index c.source

theorem Clause.Listable.eq {c c' : Clause} {index : ℕ} (h : c.Listable index)
    (h' : c'.Listable index) (hpattern : c.pattern = c'.pattern) (hsource : c.source = c'.source) :
    c = c' := by
  have hcaptures := h.captures
  rw [hsource, ← h'.captures] at hcaptures
  obtain ⟨_, _, _⟩ := c
  obtain ⟨_, _, _⟩ := c'
  exact (Clause.mk.injEq ..).mpr ⟨hpattern, hsource, hcaptures⟩

/-! ## Clauses of windows -/

namespace Neighborhood

variable {chars : List Char}

end Neighborhood

/-! ## Clauses of machines -/

namespace Transition

variable {t : Transition}

end Transition

namespace Definition

variable {d : Definition}

theorem pattern_spec {p : Pattern} (hp : d.pattern = .ok p) :
    p.clauses = d.compiledClauses ∧ p.template = d.template d.compiledClauses := by
  simp only [pattern, clauses_eq_ok] at hp
  exact Pattern.spec_of_mapError hp

end Definition

/-! ## Compiled patterns -/

namespace Rule

end Rule

namespace Pattern

/-- What reading a listing back needs of a pattern. -/
structure Listable (p : Pattern) : Prop where
  clause : ∀ i c, p.clauses[i]? = some c → Clause.Listable c i
  template : Solid p.template.toList

end Pattern

/-! ## The lines of a listing -/

namespace Pattern

/-- The lines after the clauses. -/
def closing (template : String) (sample : Option String) : List (List Char) :=
  [] :: "Replace Regex:".toList :: template.toList ::
    match sample with
    | some s => [[], "Initial Tape:".toList, s.toList]
    | none => []

variable {p p' : Pattern} {sample sample' : Option String}

variable {lines : List (List Char)} {column column' : ℕ}

end Pattern

end SubstitutionAutomata
