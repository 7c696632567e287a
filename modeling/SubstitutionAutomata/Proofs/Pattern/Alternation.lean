import SubstitutionAutomata.Pattern.Alternation
import SubstitutionAutomata.Proofs.Regex.Matching
import SubstitutionAutomata.Proofs.Regex.Reading

/-! # Patterns of legible clauses

Clauses written from legible items always make a pattern, and at each position the first clause
that matches decides. -/

namespace SubstitutionAutomata

open Regex

/-- The expression of clauses whose items are given. -/
def clauseChoice (bodies : List (List Regex)) : Regex :=
  choice (bodies.map fun items => group (concat items))

/-- What the items of all clauses must satisfy together. -/
structure Joinable (bodies : List (List Regex)) : Prop where
  legible : ∀ items ∈ bodies, ∀ r ∈ items, Legible r
  names : (bodies.flatMap fun items => items.flatMap names).Nodup
  behinds : ∀ items ∈ bodies, ∀ r ∈ items, r.fixedBehinds = true

theorem Joinable.perm {bodies others : List (List Regex)} (h : Joinable bodies)
    (hperm : others.Perm bodies) : Joinable others where
  legible items hitems := h.legible items (hperm.mem_iff.mp hitems)
  names := (hperm.flatMap_right _).nodup_iff.mpr h.names
  behinds items hitems := h.behinds items (hperm.mem_iff.mp hitems)

/-- Clauses are written as alternatives that are one group each. -/
theorem alternation_eq (clauses : List Clause) (bodies : List (List Regex))
    (hclauses : clauses.map (fun c => c.pattern.toList) =
      bodies.map fun items => (concat items).text)
    (hne : bodies ≠ []) :
    alternation clauses =
      List.intercalate ['|'] ((bodies.map fun items => group (concat items)).map text) := by
  have hc : clauses ≠ [] := by
    rintro rfl
    exact hne (List.map_eq_nil_iff.mp hclauses.symm)
  have hmap := congrArg (List.map fun s => "(?:".toList ++ s ++ [')']) hclauses
  rw [List.map_map, List.map_map] at hmap
  rw [alternation, if_neg (by simpa using hc), joinedClauses, List.map_map]
  exact congrArg (List.intercalate ['|']) hmap

theorem parse_alternation (clauses : List Clause) (bodies : List (List Regex))
    (hclauses : clauses.map (fun c => c.pattern.toList) =
      bodies.map fun items => (concat items).text)
    (h : Joinable bodies) : parse (alternation clauses) = .ok (clauseChoice bodies) := by
  by_cases hb : bodies = []
  · subst hb
    obtain rfl := List.map_eq_nil_iff.mp hclauses
    rfl
  · rw [alternation_eq clauses bodies hclauses hb]
    apply parse_intercalate_text
    · simpa using hb
    · intro r hr
      obtain ⟨items, hitems, rfl⟩ := List.mem_map.mp hr
      exact .group items (h.legible items hitems)
    · rw [List.flatMap_map]
      simpa only [Regex.names, names_concat] using h.names
    · intro r hr
      obtain ⟨items, hitems, rfl⟩ := List.mem_map.mp hr
      rw [fixedBehinds, fixedBehinds_concat, List.all_eq_true]
      exact h.behinds items hitems

theorem names_clauseChoice (bodies : List (List Regex)) :
    (clauseChoice bodies).names = bodies.flatMap fun items => items.flatMap names := by
  rw [clauseChoice, names_choice, List.flatMap_map]
  simp only [Regex.names, names_concat]

/-- At each position the first clause that matches is the match of the pattern. -/
theorem matchAt_clauseChoice (bodies : List (List Regex)) (text : Array Char) (p : ℕ) :
    (clauseChoice bodies).matchAt text p =
      bodies.findSome? fun items => (concat items).matchAt text p := by
  simp only [clauseChoice, matchAt, run_choice, List.findSome?_map]
  rfl

/-- A pattern holds the clauses and the template that it was made from, however a failure would be
reported. -/
theorem Pattern.spec_of_mapError {ε : Type} {report : ParseError → ε} {clauses : List Clause}
    {template : String} {p : Pattern}
    (h : (Pattern.ofClauses clauses template).mapError report = .ok p) :
    p.clauses = clauses ∧ p.template = template := by
  cases hp : Pattern.ofClauses clauses template with
  | error e =>
      rw [hp] at h
      cases h
  | ok p' =>
      rw [hp] at h
      obtain rfl := Except.ok.inj h
      exact (ofClauses_eq_ok_iff _ _ _).mp hp

/-- Clauses written from joinable items have a pattern, whatever the template is. -/
theorem Pattern.ofClauses_of_joinable (clauses : List Clause) (bodies : List (List Regex))
    (template : String)
    (hclauses : clauses.map (fun c => c.pattern.toList) =
      bodies.map fun items => (concat items).text)
    (h : Joinable bodies) :
    ∃ p, Pattern.ofClauses clauses template = .ok p ∧ p.clauses = clauses ∧
      p.template = template ∧ p.regex = clauseChoice bodies := by
  have hparse := parse_alternation clauses bodies hclauses h
  exact ⟨⟨clauses, template, clauseChoice bodies, hparse⟩,
    (ofClauses_eq_ok_iff clauses template _).mpr ⟨rfl, rfl⟩, rfl, rfl, rfl⟩

end SubstitutionAutomata
