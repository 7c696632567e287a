import SubstitutionAutomata.Proofs.Life.Compile

/-! # The clauses of a rule in order

A rule has no clauses exactly if some window changes and either the stride is too narrow or a cell
is born from nothing. Any other rule has a pattern below the limit of repetitions, with one clause
for each window that changes, in the order of the numbers of the windows. -/

namespace SubstitutionAutomata

open Regex Neighborhood

namespace Neighborhood

variable {cells : Neighborhood} {stride : ℤ}

theorem clause_of_narrow (hlength : cells.length = size) (hstride : stride < 3) (index : ℕ) :
    cells.clause stride index = .error (.narrowStride stride) := by
  rw [clause, if_neg (not_not_intro hlength), if_pos hstride]

theorem clause_blank (hstride : 3 ≤ stride) (index : ℕ) :
    blank.clause stride index = .error (.nothingToCopy "000/000/000" "1") := by
  rw [clause, if_neg (by decide), if_neg (by omega), if_pos (by decide)]
  rfl

end Neighborhood

namespace Rule

variable (rule : Rule)

/-! ## The numbers of the windows that change -/

def changingNumbers : List ℕ := (List.range 512).filter fun m => (ofNat m).changesUnder rule

theorem changingNeighborhoods_eq_map :
    rule.changingNeighborhoods = rule.changingNumbers.map ofNat := by
  rw [changingNeighborhoods, List.filter_map]
  rfl

theorem mem_changingNumbers_iff (m : ℕ) :
    m ∈ rule.changingNumbers ↔ m < 512 ∧ (ofNat m).changesUnder rule = true := by
  rw [changingNumbers, List.mem_filter, List.mem_range]

theorem pairwise_changingNumbers : rule.changingNumbers.Pairwise (· < ·) :=
  List.pairwise_lt_range.filter _

theorem changingNeighborhoods_ne_nil_iff :
    rule.changingNeighborhoods ≠ [] ↔ ∃ m < 512, (ofNat m).changesUnder rule = true := by
  rw [changingNeighborhoods_eq_map, ne_eq, List.map_eq_nil_iff, List.eq_nil_iff_forall_not_mem]
  simp [mem_changingNumbers_iff]

variable {rule}

/-- A birth from nothing changes the first of all windows. -/
theorem exists_changingNeighborhoods_eq_cons (hbirth : 0 ∈ rule.birth) :
    ∃ rest, rule.changingNeighborhoods = blank :: rest := by
  have hblank : blank.changesUnder rule = true :=
    (List.mem_filter.mp (rule.blank_mem_changingNeighborhoods hbirth)).2
  have hwindows : (List.range 512).map ofNat =
      blank :: ((List.range 511).map Nat.succ).map ofNat := by
    rw [List.range_succ_eq_map]
    rfl
  rw [changingNeighborhoods, hwindows, List.filter_cons_of_pos hblank]
  exact ⟨_, rfl⟩

/-! ## Rules without clauses -/

theorem windowClauses_cons_of_error {cells : Neighborhood} {stride : ℤ} {index : ℕ}
    {e : Clause.Error} (h : cells.clause stride index = .error e) (rest : List Neighborhood) :
    windowClauses stride index (cells :: rest) = .error e := by
  rw [windowClauses, h]

/-- The first window that changes says why a rule has no clauses. -/
theorem clauses_eq_error {stride : ℤ} (hchanges : rule.changingNeighborhoods ≠ [])
    (h : stride < 3 ∨ 0 ∈ rule.birth) :
    rule.clauses stride = .error (if stride < 3 then .narrowStride stride
      else .nothingToCopy "000/000/000" "1") := by
  by_cases hstride : stride < 3
  · obtain ⟨cells, rest, hwindows⟩ := List.exists_cons_of_ne_nil hchanges
    have hmem : cells ∈ rule.changingNeighborhoods := hwindows ▸ List.mem_cons_self
    have hlength : cells.length = size := by
      obtain ⟨m, -, rfl⟩ := List.mem_map.mp (List.mem_filter.mp hmem).1
      exact length_ofNat m
    rw [clauses, hwindows, if_pos hstride]
    exact windowClauses_cons_of_error (clause_of_narrow hlength hstride 0) rest
  · obtain ⟨rest, hwindows⟩ := exists_changingNeighborhoods_eq_cons (h.resolve_left hstride)
    rw [clauses, hwindows, if_neg hstride]
    exact windowClauses_cons_of_error (clause_blank (by omega) 0) rest

/-! ## The clauses of a pattern -/

variable {s : ℕ} {p : Pattern}

/-- The clauses of a pattern are those of the windows with some numbers, in this order. Each clause
captures one cell under its own name, and the template writes back these captures and nothing
else. -/
structure Enumerates (stride : ℤ) (numbers : List ℕ) (p : Pattern) : Prop where
  length : p.clauses.length = numbers.length
  clause : ∀ i m, numbers[i]? = some m → ∃ c r, p.clauses[i]? = some c ∧
    (ofNat m).clause stride i = .ok c ∧ c.captures = [captureName i] ∧
    Regex.parse c.pattern.toList = .ok r ∧ Regex.names r = [captureName i]
  names : p.regex.names = (List.range numbers.length).map captureName
  template : p.template =
    String.join ((List.range numbers.length).map fun i => Template.reference (captureName i))

theorem parse_compiled (chars : List Char) (h9 : chars.length = 9) (hs : 3 ≤ s)
    (hlimit : s < repeatLimit) (i : ℕ) :
    Regex.parse ((ofChars chars).compiled s i).pattern.toList =
      .ok (concat ((ofChars chars).items s (captureName i))) := by
  rw [toList_pattern_compiled]
  apply parse_concat_text
  · exact legible_items chars h9 _ s hs (by omega) (isCaptureName_captureName i)
  · rw [names_items chars h9]
    exact List.nodup_singleton _
  · exact fixedBehinds_items chars h9 _ s hs hlimit

theorem enumerates_of_pattern (hbirth : 0 ∉ rule.birth) (hs : 3 ≤ s)
    (hp : rule.pattern s = .ok p) : Enumerates s rule.changingNumbers p := by
  obtain ⟨hclauses, htemplate⟩ := pattern_spec hbirth hs hp
  have hlength : rule.changingNeighborhoods.length = rule.changingNumbers.length := by
    rw [changingNeighborhoods_eq_map, List.length_map]
  have hnames : rule.captureNames = (List.range rule.changingNumbers.length).map captureName := by
    rw [captureNames, hlength]
  refine ⟨?_, fun i m hm => ?_, ?_, ?_⟩
  · rw [hclauses, compiledClauses, List.length_map, List.length_zipIdx, hlength]
  · have hwindow : rule.changingNeighborhoods[i]? = some (ofNat m) := by
      rw [changingNeighborhoods_eq_map, List.getElem?_map, hm]
      rfl
    have hmem := List.mem_of_getElem? hwindow
    have hlimit : s < repeatLimit := by
      apply stride_lt_of_pattern hbirth hs hp
      simpa [clauseItems] using List.ne_nil_of_mem hmem
    refine ⟨(ofNat m).compiled s i, concat ((ofNat m).items s (captureName i)), ?_,
      clause_of_compiles (compiles_of_mem hbirth hs hmem) i, rfl, ?_, ?_⟩
    · rw [hclauses, compiledClauses, List.getElem?_map, List.getElem?_zipIdx, hwindow]
      simp
    · rw [ofNat_eq_ofChars]
      exact parse_compiled _ (length_digits m) hs hlimit i
    · rw [ofNat_eq_ofChars, names_concat, names_items _ (length_digits m)]
  · rw [(regex_of_pattern hbirth hs hp).1, names_clauseChoice, names_clauseItems, hnames]
  · rw [htemplate, hnames, List.map_map]
    rfl

/-- Without windows that change every stride will do. -/
theorem exists_enumerates_of_changingNeighborhoods_eq_nil
    (h : rule.changingNeighborhoods = []) (stride : ℤ) :
    ∃ p, rule.pattern stride = .ok p ∧ Enumerates stride rule.changingNumbers p := by
  have hbirth : 0 ∉ rule.birth := fun hbirth =>
    List.ne_nil_of_mem (rule.blank_mem_changingNeighborhoods hbirth) h
  obtain ⟨p, hp, -⟩ := rule.exists_pattern hbirth (Nat.le_refl 3) (by decide)
  have henumerates := enumerates_of_pattern hbirth (Nat.le_refl 3) hp
  rw [pattern_eq_of_changingNeighborhoods_eq_nil h _ stride] at hp
  have hnone : rule.changingNumbers = [] :=
    List.map_eq_nil_iff.mp (rule.changingNeighborhoods_eq_map.symm.trans h)
  refine ⟨p, hp, { henumerates with clause := fun i m hm => ?_ }⟩
  rw [hnone] at hm
  cases hm

/-- A rule has no clauses exactly if some window changes and the stride is too narrow or a cell is
born from nothing. The narrow stride is found first. Any other rule has a pattern at every stride
below the limit of repetitions, with a clause for each window that changes in the order of their
numbers. -/
theorem pattern_fails_exactly (rule : Rule) (stride : ℤ) :
    ((∃ e, rule.pattern stride = .error (.clause e)) ↔
        (∃ m < 512, (ofNat m).changesUnder rule = true) ∧ (stride < 3 ∨ 0 ∈ rule.birth)) ∧
      (∀ e, rule.pattern stride = .error (.clause e) →
        e = if stride < 3 then .narrowStride stride else .nothingToCopy "000/000/000" "1") ∧
      (¬ ((∃ m < 512, (ofNat m).changesUnder rule = true) ∧ (stride < 3 ∨ 0 ∈ rule.birth)) →
        stride < repeatLimit → ∃ p, rule.pattern stride = .ok p ∧
          ∃ numbers : List ℕ, numbers.Pairwise (· < ·) ∧
            (∀ m, m ∈ numbers ↔ m < 512 ∧ (ofNat m).changesUnder rule = true) ∧
            Enumerates stride numbers p) := by
  have hrefused : (∃ e, rule.pattern stride = .error (.clause e)) ↔
      rule.changingNeighborhoods ≠ [] ∧ (stride < 3 ∨ 0 ∈ rule.birth) := by
    rw [← clauses_eq_error_iff]
    exact exists_congr fun e => ⟨clauses_of_pattern_eq_clause, pattern_of_clauses_error⟩
  rw [← changingNeighborhoods_ne_nil_iff]
  refine ⟨hrefused, fun e he => ?_, fun hwritten hlimit => ?_⟩
  · obtain ⟨hchanges, hcause⟩ := hrefused.mp ⟨e, he⟩
    have hclauses := clauses_of_pattern_eq_clause he
    rw [clauses_eq_error hchanges hcause, Except.error.injEq] at hclauses
    exact hclauses.symm
  · have hnumbers := And.intro rule.pairwise_changingNumbers rule.mem_changingNumbers_iff
    by_cases hnone : rule.changingNeighborhoods = []
    · obtain ⟨p, hp, henumerates⟩ :=
        exists_enumerates_of_changingNeighborhoods_eq_nil hnone stride
      exact ⟨p, hp, rule.changingNumbers, hnumbers.1, hnumbers.2, henumerates⟩
    · have hfits : 3 ≤ stride ∧ 0 ∉ rule.birth := by
        refine ⟨?_, fun hbirth => hwritten ⟨hnone, .inr hbirth⟩⟩
        by_contra hstride
        exact hwritten ⟨hnone, .inl (by omega)⟩
      obtain ⟨s, rfl⟩ := Int.eq_ofNat_of_zero_le (Int.le_trans (by decide) hfits.1)
      have hs : 3 ≤ s := by omega
      obtain ⟨p, hp, -⟩ := rule.exists_pattern hfits.2 hs (by omega)
      exact ⟨p, hp, rule.changingNumbers, hnumbers.1, hnumbers.2,
        enumerates_of_pattern hfits.2 hs hp⟩

/-- A row of three live cells brings the cell above it to life, but at a stride of two no window
fits, and a cell that is born from nothing has no cell to copy. -/
theorem pattern_fails_exactly_gameOfLife :
    (ofNat 7).changesUnder gameOfLife = true ∧
      gameOfLife.pattern 2 = .error (.clause (.narrowStride 2)) ∧
      (Rule.mk (.ofList [0, 3]) .empty).pattern 8 =
        .error (.clause (.nothingToCopy "000/000/000" "1")) ∧
      ¬ ((8 : ℤ) < 3 ∨ 0 ∈ gameOfLife.birth) ∧ (8 : ℤ) < repeatLimit ∧
      ∃ p, gameOfLife.pattern 8 = .ok p ∧ ∃ numbers : List ℕ, numbers.Pairwise (· < ·) ∧
        (∀ m, m ∈ numbers ↔ m < 512 ∧ (ofNat m).changesUnder gameOfLife = true) ∧
        Enumerates 8 numbers p := by
  have hchanges : (ofNat 7).changesUnder gameOfLife = true := by decide
  have hborn : (ofNat 7).changesUnder ⟨.ofList [0, 3], .empty⟩ = true := by decide
  have hfits : ¬ ((8 : ℤ) < 3 ∨ 0 ∈ gameOfLife.birth) := by decide
  have hlimit : (8 : ℤ) < repeatLimit := by decide
  obtain ⟨hnarrow, hnarrow', -⟩ := pattern_fails_exactly gameOfLife 2
  obtain ⟨hnothing, hnothing', -⟩ := pattern_fails_exactly ⟨.ofList [0, 3], .empty⟩ 8
  obtain ⟨e, he⟩ := hnarrow.mpr ⟨⟨7, by decide, hchanges⟩, .inl (by decide)⟩
  obtain ⟨e', he'⟩ := hnothing.mpr ⟨⟨7, by decide, hborn⟩, .inr (by decide)⟩
  obtain rfl := hnarrow' e he
  obtain rfl := hnothing' e' he'
  exact ⟨hchanges, he, he', hfits, hlimit,
    (pattern_fails_exactly gameOfLife 8).2.2 (fun h => hfits h.2) hlimit⟩

end Rule

end SubstitutionAutomata
