import SubstitutionAutomata.Pattern.Clause
import SubstitutionAutomata.Regex.Parser
import SubstitutionAutomata.Regex.Substitution

/-! All clauses of a rule set joined into one expression with one template. -/

namespace SubstitutionAutomata

open Regex

/-- The clauses in order, each in a group, with bars between them. -/
def joinedClauses (clauses : List Clause) : List Char :=
  List.intercalate ['|'] (clauses.map fun c => "(?:".toList ++ c.pattern.toList ++ [')'])

/-- What is matched for some clauses. Without clauses nothing ever matches. -/
def alternation (clauses : List Clause) : List Char :=
  if clauses.isEmpty then "(?!)".toList else joinedClauses clauses

/-- Clauses, the template that replaces every match, and the expression that the clauses read as.
At each position the first clause that matches wins. -/
structure Pattern where
  clauses : List Clause
  template : String
  regex : Regex
  regex_eq : parse (alternation clauses) = .ok regex

namespace Pattern

/-- Why a rule set has no pattern. -/
inductive Error where
  | clause (e : Clause.Error)
  | expression (e : Regex.ParseError)
  deriving DecidableEq, Repr

def Error.message : Error → String
  | clause e => e.message
  | expression e => e.message

def ofClauses (clauses : List Clause) (template : String) : Except ParseError Pattern :=
  match h : parse (alternation clauses) with
  | .ok regex => .ok ⟨clauses, template, regex, h⟩
  | .error e => .error e

def source (p : Pattern) : String := String.ofList (joinedClauses p.clauses)

def size (p : Pattern) : Nat := p.clauses.length

/-- Replaces all matches in one pass, and counts them. A template with an unknown capture fails on
every buffer. -/
def apply (p : Pattern) (buffer : String) : Except Template.Fault (String × Nat) :=
  match Template.ofText p.regex.names p.template with
  | .ok template => .ok (p.regex.substitute template buffer)
  | .error fault => .error fault

theorem ofClauses_eq_ok_iff (clauses : List Clause) (template : String) (p : Pattern) :
    ofClauses clauses template = .ok p ↔ p.clauses = clauses ∧ p.template = template := by
  constructor
  · intro h
    unfold ofClauses at h
    split at h
    · injection h with h
      subst h
      exact ⟨rfl, rfl⟩
    · cases h
  · rintro ⟨rfl, rfl⟩
    obtain ⟨clauses, template, regex, h⟩ := p
    unfold ofClauses
    split
    · rename_i r hr
      simp only [Except.ok.injEq, mk.injEq, true_and]
      rw [h] at hr
      injection hr with hr
      exact hr.symm
    · rename_i e he
      rw [h] at he
      cases he

end Pattern

end SubstitutionAutomata
