import SubstitutionAutomata.Life.Pattern
import SubstitutionAutomata.Proofs.Life.Changing
import SubstitutionAutomata.Proofs.Pattern.Template
import SubstitutionAutomata.Proofs.Regex.Pass
import Mathlib.Data.List.Nodup

/-! # The pattern of a rule

The clauses of a rule read back as what they were written from, so a rule always has a pattern. At
each position the first clause that matches decides, and the template writes back what it captured.
-/

namespace SubstitutionAutomata

open Regex

/-! ## Clauses that read back -/

namespace Neighborhood

theorem captureName_injective : Function.Injective captureName := by
  intro i j h
  exact (Template.numbered_inj "replace_" i j).mp h

theorem isCaptureName_captureName (i : ℕ) : IsCaptureName (captureName i) :=
  isCaptureName_numbered (by decide) i

theorem legible_rowItems (name : String) (cells : Neighborhood) (indices : List ℕ)
    (hname : IsCaptureName name) : ∀ r ∈ cells.rowItems name indices, Legible r := by
  intro r hr
  obtain ⟨piece, hpiece, hr⟩ := List.mem_flatMap.mp hr
  obtain ⟨i, -, rfl⟩ := List.mem_map.mp hpiece
  apply Piece.legible_of_mem_items hr
  intro other hother
  obtain ⟨rfl, -⟩ := name?_piece_eq_some hother
  exact hname

theorem legible_gap (s : ℕ) (hs : s < repeatLimit + 3) : Legible (gap s) := by
  apply Legible.group [.anyTimes ((s : Int) - 3).toNat]
  intro r hr
  obtain rfl := List.mem_singleton.mp hr
  have hpos : 0 < repeatLimit := by decide
  exact .anyTimes _ (by omega)

theorem legible_scanItems (name : String) (cells : Neighborhood) (hname : IsCaptureName name) :
    ∀ r ∈ cells.scanItems name, Legible r := by
  intro r hr
  by_cases h : cells.source?.isSome
  · simp [scanItems, h] at hr
  · have hr : r = .lazyAny ∨ r = .capture name (.literal dead.toList) := by
      simpa [scanItems, h] using hr
    rcases hr with rfl | rfl
    · exact .lazyAny
    · refine .capture name _ hname fun r hr => ?_
      obtain ⟨c, -, rfl⟩ := List.mem_map.mp hr
      exact .char c

theorem legible_items (chars : List Char) (h9 : chars.length = 9) (name : String) (s : ℕ)
    (hs : 3 ≤ s) (hlimit : s < repeatLimit + 3) (hname : IsCaptureName name) :
    ∀ r ∈ (ofChars chars).items s name, Legible r := by
  obtain ⟨n, rfl⟩ := Nat.exists_eq_add_of_le' hs
  have hrow := fun indices => legible_rowItems name (ofChars chars) indices hname
  have hgap := legible_gap (n + 3) hlimit
  intro r hr
  rw [items, width_beforeItems name chars h9] at hr
  rcases List.mem_cons.mp hr with rfl | hr
  · refine .behind _ _ (width_beforeItems name chars h9 n) fun r hr => ?_
    rcases List.mem_append.mp hr with hr | hr
    · exact hrow _ r hr
    · rcases List.mem_cons.mp hr with rfl | hr
      · exact hgap
      · exact hrow _ r hr
  · rcases List.mem_append.mp hr with hr | hr
    · exact hrow _ r hr
    · obtain rfl := List.mem_singleton.mp hr
      refine .ahead _ fun r hr => ?_
      rcases List.mem_append.mp hr with hr | hr
      · exact hrow _ r hr
      · rcases List.mem_cons.mp hr with rfl | hr
        · exact hgap
        · rcases List.mem_append.mp hr with hr | hr
          · exact hrow _ r hr
          · exact legible_scanItems name _ hname r hr

theorem fixedBehinds_rowItems (name : String) (cells : Neighborhood) (indices : List ℕ) :
    (cells.rowItems name indices).all fixedBehinds = true := by
  rw [List.all_eq_true]
  intro r hr
  obtain ⟨piece, -, hr⟩ := List.mem_flatMap.mp hr
  exact Piece.fixedBehinds_of_mem_items hr

theorem fixedBehinds_scanItems (name : String) (cells : Neighborhood) :
    (cells.scanItems name).all fixedBehinds = true := by
  by_cases h : cells.source?.isSome <;>
    simp [scanItems, h, fixedBehinds, fixedBehinds_literal]

theorem fixedBehinds_gap (s : Int) : (gap s).fixedBehinds = true := rfl

theorem fixedBehinds_items (chars : List Char) (h9 : chars.length = 9) (name : String) (s : ℕ)
    (hs : 3 ≤ s) (hlimit : s < repeatLimit) :
    ∀ r ∈ (ofChars chars).items s name, r.fixedBehinds = true := by
  obtain ⟨n, rfl⟩ := Nat.exists_eq_add_of_le' hs
  have hwidth := width_beforeItems name chars h9 n
  have hbefore : (concat ((ofChars chars).beforeItems (n + 3) name)).fixedBehinds = true := by
    simp [fixedBehinds_concat, beforeItems, fixedBehinds_rowItems, fixedBehinds_gap]
  have hafter : (concat ((ofChars chars).afterItems (n + 3) name)).fixedBehinds = true := by
    simp [fixedBehinds_concat, afterItems, fixedBehinds_rowItems, fixedBehinds_gap,
      fixedBehinds_scanItems]
  rw [← List.all_eq_true, items, hwidth]
  simp [fixedBehinds, fixedBehinds_rowItems, hbefore, hafter, hwidth]
  omega

theorem names_rowItems (name : String) (cells : Neighborhood) (indices : List ℕ) :
    (cells.rowItems name indices).flatMap names =
      indices.filterMap fun i => if cells.source? = some i then some name else none := by
  rw [rowItems, Piece.names_flatMap_items, List.filterMap_map]
  rfl

/-- A clause captures one cell. -/
theorem names_items (chars : List Char) (h9 : chars.length = 9) (name : String) (s : ℕ) :
    ((ofChars chars).items s name).flatMap names = [name] := by
  have hgap : (gap s).names = [] := rfl
  simp only [items, beforeItems, afterItems, List.flatMap_cons, List.flatMap_append,
    List.flatMap_nil, names, names_concat, names_rowItems, hgap, List.nil_append, List.append_nil]
  cases hsource : (ofChars chars).source? with
  | none => simp [scanItems, hsource, names, names_literal]
  | some i =>
      have hi : i < 9 := by
        have hlt := (source?_spec hsource).1
        rwa [ofChars, List.length_map, h9] at hlt
      have hscan : (ofChars chars).scanItems name = [] := by simp [scanItems, hsource]
      rw [hscan]
      simp only [Option.some.injEq, List.flatMap_nil, List.append_nil]
      have hcases : i = 0 ∨ i = 1 ∨ i = 2 ∨ i = 3 ∨ i = 4 ∨ i = 5 ∨ i = 6 ∨ i = 7 ∨ i = 8 := by
        omega
      rcases hcases with rfl | rfl | rfl | rfl | rfl | rfl | rfl | rfl | rfl <;> rfl

/-! ## The clauses of a rule -/

/-- Whether a window has a clause for some stride. -/
def Compiles (cells : Neighborhood) (s : ℕ) : Prop :=
  cells.length = size ∧ 3 ≤ s ∧ (cells.source? = none → cells.target = dead)

def compiled (cells : Neighborhood) (s index : ℕ) : Clause :=
  ⟨toString (cells.regex s (captureName index)), cells.label, [captureName index]⟩

theorem clause_of_compiles {cells : Neighborhood} {s : ℕ} (h : cells.Compiles s) (index : ℕ) :
    cells.clause s index = .ok (cells.compiled s index) := by
  obtain ⟨hlen, hs, htarget⟩ := h
  have hstride : ¬ (s : Int) < 3 := by omega
  have hcopy : ¬ (cells.source?.isNone && cells.target ≠ dead) = true := by
    simpa [Option.isNone_iff_eq_none] using htarget
  simp only [clause, hlen, ne_eq, not_true_eq_false, if_false, hstride]
  rw [if_neg hcopy]
  rfl

theorem toList_pattern_compiled (cells : Neighborhood) (s index : ℕ) :
    (cells.compiled s index).pattern.toList =
      (concat (cells.items s (captureName index))).text := by
  rw [← regex_eq]
  exact String.toList_ofList

end Neighborhood

namespace Rule

open Neighborhood

variable {rule : Rule} {s : ℕ}

/-- The items of the clauses of a rule. -/
def clauseItems (rule : Rule) (s : ℕ) : List (List Regex) :=
  rule.changingNeighborhoods.zipIdx.map fun (cells, i) => cells.items s (captureName i)

/-- The names of the captures, one for each clause. -/
def captureNames (rule : Rule) : List String :=
  (List.range rule.changingNeighborhoods.length).map captureName

theorem nodup_captureNames (rule : Rule) : rule.captureNames.Nodup :=
  List.nodup_range.map captureName_injective

theorem captureName_mem {cells : Neighborhood} {i : ℕ}
    (h : (cells, i) ∈ rule.changingNeighborhoods.zipIdx) : captureName i ∈ rule.captureNames :=
  List.mem_map_of_mem (List.mem_range.mpr (List.mem_zipIdx' h).1)

theorem compiles_of_mem (hbirth : 0 ∉ rule.birth) (hs : 3 ≤ s) {cells : Neighborhood}
    (h : cells ∈ rule.changingNeighborhoods) : cells.Compiles s := by
  obtain ⟨chars, rfl, h9, -, hchanges⟩ := (rule.mem_changingNeighborhoods_iff cells).mp h
  exact ⟨by rw [ofChars, List.length_map, h9, size], hs, target_eq_dead hbirth hchanges⟩

def compiledClauses (rule : Rule) (s : ℕ) : List Clause :=
  rule.changingNeighborhoods.zipIdx.map fun (cells, i) => cells.compiled s i

theorem windowClauses_of_compiles (s index : ℕ) (windows : List Neighborhood)
    (h : ∀ cells ∈ windows, cells.Compiles s) :
    windowClauses s index windows =
      .ok ((windows.zipIdx index).map fun (cells, i) => cells.compiled s i) := by
  induction windows generalizing index with
  | nil => rfl
  | cons cells windows ih =>
      rw [windowClauses, clause_of_compiles (h cells (by simp)),
        ih (index + 1) fun other hother => h other (List.mem_cons_of_mem cells hother),
        List.zipIdx_cons, List.map_cons]

theorem clauses_eq_ok (hbirth : 0 ∉ rule.birth) (hs : 3 ≤ s) :
    rule.clauses s = .ok (rule.compiledClauses s) :=
  windowClauses_of_compiles s 0 _ fun _ h => compiles_of_mem hbirth hs h

theorem pattern_of_clauses_error {stride : ℤ} {e : Clause.Error}
    (h : rule.clauses stride = .error e) : rule.pattern stride = .error (.clause e) := by
  unfold pattern
  rw [h]

theorem pattern_of_clauses_ok {stride : ℤ} {found : List Clause}
    (h : rule.clauses stride = .ok found) :
    rule.pattern stride = (Pattern.ofClauses found (template found)).mapError .expression := by
  unfold pattern
  rw [h]

theorem pattern_eq_ok {stride : Int} {found : List Clause} {p : Pattern}
    (hclauses : rule.clauses stride = .ok found)
    (hp : Pattern.ofClauses found (template found) = .ok p) : rule.pattern stride = .ok p := by
  rw [pattern_of_clauses_ok hclauses, hp]
  rfl

theorem captures_compiledClauses (rule : Rule) (s : ℕ) :
    (rule.compiledClauses s).flatMap Clause.captures = rule.captureNames := by
  rw [compiledClauses, List.flatMap_map, captureNames, List.range_eq_range', ← List.zipIdx_map_snd,
    List.map_map, List.map_eq_flatMap]
  rfl

theorem template_compiledClauses (rule : Rule) (s : ℕ) :
    template (rule.compiledClauses s) =
      String.join (rule.captureNames.map Template.reference) := by
  rw [template, ← List.map_flatMap, captures_compiledClauses]

theorem mem_clauseItems {items : List Regex} (h : items ∈ rule.clauseItems s) :
    ∃ (chars : List Char) (i : ℕ), chars.length = 9 ∧
      (ofChars chars, i) ∈ rule.changingNeighborhoods.zipIdx ∧
      items = (ofChars chars).items s (captureName i) := by
  obtain ⟨⟨cells, i⟩, hmem, rfl⟩ := List.mem_map.mp h
  obtain ⟨chars, rfl, h9, -⟩ :=
    (rule.mem_changingNeighborhoods_iff cells).mp (List.fst_mem_of_mem_zipIdx hmem)
  exact ⟨chars, i, h9, hmem, rfl⟩

theorem names_clauseItems (rule : Rule) (s : ℕ) :
    ((rule.clauseItems s).flatMap fun items => items.flatMap names) = rule.captureNames := by
  have hnames : ∀ entry ∈ rule.changingNeighborhoods.zipIdx,
      (entry.1.items s (captureName entry.2)).flatMap names = [captureName entry.2] := by
    rintro ⟨cells, i⟩ hmem
    obtain ⟨chars, rfl, h9, -⟩ :=
      (rule.mem_changingNeighborhoods_iff cells).mp (List.fst_mem_of_mem_zipIdx hmem)
    exact names_items chars h9 (captureName i) s
  rw [clauseItems, List.flatMap_map, List.flatMap_congr hnames, ← List.map_eq_flatMap,
    captureNames, List.range_eq_range', ← List.zipIdx_map_snd, List.map_map]
  rfl

theorem joinable_clauseItems (rule : Rule) (hs : 3 ≤ s) (hlimit : s < repeatLimit) :
    Joinable (rule.clauseItems s) where
  legible := by
    intro items hitems
    obtain ⟨chars, i, h9, -, rfl⟩ := mem_clauseItems hitems
    exact legible_items chars h9 (captureName i) s hs (by omega) (isCaptureName_captureName i)
  names := by
    rw [names_clauseItems]
    exact rule.nodup_captureNames
  behinds := by
    intro items hitems
    obtain ⟨chars, i, h9, -, rfl⟩ := mem_clauseItems hitems
    exact fixedBehinds_items chars h9 (captureName i) s hs hlimit

theorem patterns_compiled (s : ℕ) (windows : List (Neighborhood × ℕ)) :
    (windows.map fun (cells, i) => cells.compiled s i).map (fun c => c.pattern.toList) =
      (windows.map fun (cells, i) => cells.items s (captureName i)).map
        fun items => (concat items).text := by
  rw [List.map_map, List.map_map]
  apply List.map_congr_left
  rintro ⟨cells, i⟩ -
  exact toList_pattern_compiled cells s i

theorem patterns_compiledClauses (rule : Rule) (s : ℕ) :
    (rule.compiledClauses s).map (fun c => c.pattern.toList) =
      (rule.clauseItems s).map fun items => (concat items).text :=
  patterns_compiled s rule.changingNeighborhoods.zipIdx

/-- Clauses of a rule in any order have a pattern, whose template may refer to the captures in any
order. -/
theorem exists_pattern_of_perm (hjoinable : Joinable (rule.clauseItems s)) {clauses : List Clause}
    {bodies : List (List Regex)} {names : List String}
    (hwritten : clauses.map (fun c => c.pattern.toList) =
      bodies.map fun items => (concat items).text)
    (hbodies : bodies.Perm (rule.clauseItems s)) (hnames : names.Perm rule.captureNames) :
    ∃ p, Pattern.ofClauses clauses (String.join (names.map Template.reference)) = .ok p ∧
      p.regex = clauseChoice bodies ∧
      Template.ofText p.regex.names p.template = .ok (names.map .capture) := by
  obtain ⟨p, hp, -, htemplate, hregex⟩ := Pattern.ofClauses_of_joinable clauses bodies
    (String.join (names.map Template.reference)) hwritten (hjoinable.perm hbodies)
  have hcaptures : p.regex.names.Perm rule.captureNames := by
    rw [hregex, names_clauseChoice, ← names_clauseItems rule s]
    exact hbodies.flatMap_right _
  refine ⟨p, hp, hregex, ?_⟩
  rw [htemplate]
  exact p.ofText_references names fun name hname =>
    hcaptures.mem_iff.mpr (hnames.mem_iff.mp hname)

/-- A rule has a pattern, and the template of the pattern refers to every capture once. -/
theorem exists_pattern (rule : Rule) (hbirth : 0 ∉ rule.birth) (hs : 3 ≤ s)
    (hlimit : s < repeatLimit) :
    ∃ p, rule.pattern s = .ok p ∧ p.regex = clauseChoice (rule.clauseItems s) ∧
      Template.ofText p.regex.names p.template = .ok (rule.captureNames.map .capture) := by
  obtain ⟨p, hp, hregex, hread⟩ := exists_pattern_of_perm (joinable_clauseItems rule hs hlimit)
    (patterns_compiledClauses rule s) (.refl _) (.refl _)
  rw [← template_compiledClauses] at hp
  exact ⟨p, pattern_eq_ok (clauses_eq_ok hbirth hs) hp, hregex, hread⟩

end Rule

end SubstitutionAutomata
