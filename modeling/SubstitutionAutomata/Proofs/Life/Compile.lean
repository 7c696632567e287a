import SubstitutionAutomata.Proofs.Life.Flips
import Mathlib.Data.List.Perm.Basic

/-! # When a rule has a pattern

A rule that changes no window has the same pattern at every stride. Any other rule has clauses
exactly if no cell is born without live neighbours and a window fits into the stride, and then it
has a pattern exactly if the stride is below the limit of repetitions. The clauses of a pattern may
stand in any order, and its template may refer to their captures in any order. -/

namespace SubstitutionAutomata

open Regex Neighborhood

/-! ## Rules that have clauses -/

namespace Neighborhood

/-- Why a window has no clause. -/
inductive Refused (cells : Neighborhood) (stride : ℤ) : Prop where
  | cellCount (h : cells.length ≠ size)
  | narrowStride (h : stride < 3)
  | nothingToCopy (source : cells.source? = none) (target : cells.target ≠ dead)

theorem clause_eq_error_iff (cells : Neighborhood) (stride : ℤ) (index : ℕ) :
    (∃ e, cells.clause stride index = .error e) ↔ cells.Refused stride := by
  constructor
  · rintro ⟨e, h⟩
    simp only [clause] at h
    split at h
    · exact .cellCount ‹_›
    · split at h
      · exact .narrowStride ‹_›
      · split at h
        · rename_i hcopy
          rw [Bool.and_eq_true, Option.isNone_iff_eq_none, decide_eq_true_iff] at hcopy
          exact .nothingToCopy hcopy.1 hcopy.2
        · cases h
  · intro h
    by_cases hcount : cells.length ≠ size
    · exact ⟨_, if_pos hcount⟩
    · by_cases hstride : stride < 3
      · exact ⟨_, (if_neg hcount).trans (if_pos hstride)⟩
      · refine ⟨_, (if_neg hcount).trans ((if_neg hstride).trans (if_pos ?_))⟩
        cases h with
        | cellCount h => exact absurd h hcount
        | narrowStride h => exact absurd h hstride
        | nothingToCopy source target => simp [source, target]

/-- The window without live cells. -/
def blank : Neighborhood := ofChars (List.replicate 9 '0')

theorem refused_blank (stride : ℤ) : blank.Refused stride :=
  .nothingToCopy (by decide) (by decide)

end Neighborhood

namespace Rule

variable (rule : Rule)

theorem windowClauses_eq_error_iff (stride : ℤ) (index : ℕ) (windows : List Neighborhood) :
    (∃ e, windowClauses stride index windows = .error e) ↔
      ∃ cells ∈ windows, cells.Refused stride := by
  induction windows generalizing index with
  | nil => simp [windowClauses]
  | cons cells windows ih =>
      have hrest := ih (index + 1)
      simp only [List.mem_cons, exists_eq_or_imp]
      rw [← clause_eq_error_iff cells stride index, ← hrest, windowClauses]
      cases hclause : cells.clause stride index with
      | error e => simp
      | ok clause => cases hclauses : windowClauses stride (index + 1) windows <;> simp

theorem blank_mem_changingNeighborhoods (hbirth : 0 ∈ rule.birth) :
    blank ∈ rule.changingNeighborhoods := by
  rw [blank, ofChars_mem_changingNeighborhoods_iff, changesUnder_ofChars]
  refine ⟨by decide, fun c hc => .inl (List.eq_of_mem_replicate hc), ?_⟩
  simpa [changes] using hbirth

/-- A rule has no clauses exactly if some window changes and either does not fit into the stride or
would be born from nothing. -/
theorem clauses_eq_error_iff (stride : ℤ) :
    (∃ e, rule.clauses stride = .error e) ↔
      rule.changingNeighborhoods ≠ [] ∧ (stride < 3 ∨ 0 ∈ rule.birth) := by
  rw [clauses, windowClauses_eq_error_iff]
  constructor
  · rintro ⟨cells, hmem, hrefused⟩
    refine ⟨List.ne_nil_of_mem hmem, ?_⟩
    obtain ⟨chars, rfl, h9, -, hchanges⟩ := (rule.mem_changingNeighborhoods_iff cells).mp hmem
    cases hrefused with
    | cellCount h => exact absurd ((List.length_map _).trans h9) h
    | narrowStride h => exact .inl h
    | nothingToCopy source target =>
        by_contra h
        exact target (target_eq_dead (fun hbirth => h (.inr hbirth)) hchanges source)
  · rintro ⟨hne, hstride | hbirth⟩
    · obtain ⟨cells, hmem⟩ := List.exists_mem_of_ne_nil _ hne
      exact ⟨cells, hmem, .narrowStride hstride⟩
    · exact ⟨blank, rule.blank_mem_changingNeighborhoods hbirth, refused_blank stride⟩

variable {rule} in
/-- Without clauses the stride does not count. -/
theorem pattern_eq_of_changingNeighborhoods_eq_nil (h : rule.changingNeighborhoods = [])
    (stride stride' : ℤ) : rule.pattern stride = rule.pattern stride' := by
  have hclauses : rule.clauses stride = rule.clauses stride' := by
    rw [clauses, clauses, h, windowClauses, windowClauses]
  unfold pattern
  rw [hclauses]

variable {rule} in
/-- A rule with clauses for a stride is also written for a stride that a window fits into. -/
theorem exists_stride_of_clauses {s : ℕ} {found : List Clause} (h : rule.clauses s = .ok found) :
    0 ∉ rule.birth ∧ ∃ s' : ℕ, 3 ≤ s' ∧ s' ≤ max s 3 ∧ rule.pattern s = rule.pattern s' := by
  have hnone : ¬ ∃ e, rule.clauses s = .error e := by simp [h]
  rw [clauses_eq_error_iff] at hnone
  by_cases hne : rule.changingNeighborhoods = []
  · refine ⟨fun hbirth => ?_, 3, Nat.le_refl 3, Nat.le_max_right s 3,
      pattern_eq_of_changingNeighborhoods_eq_nil hne s (3 : ℕ)⟩
    exact List.ne_nil_of_mem (rule.blank_mem_changingNeighborhoods hbirth) hne
  · exact ⟨fun hbirth => hnone ⟨hne, .inr hbirth⟩, s, by
      by_contra hs
      exact hnone ⟨hne, .inl (by omega)⟩, Nat.le_max_left s 3, rfl⟩

end Rule

/-! ## Clauses that make a pattern -/

namespace Neighborhood

variable (chars : List Char)

theorem nodup_names_rowItems (h9 : chars.length = 9) (name : String) (s : ℕ) :
    (((ofChars chars).rowItems name [0, 1, 2]).flatMap names).Nodup := by
  have hnames := names_items chars h9 name s
  simp only [items, beforeItems, List.flatMap_cons, names, names_concat, List.flatMap_append,
    List.append_assoc] at hnames
  have hnodup : [name].Nodup := List.nodup_singleton name
  rw [← hnames] at hnodup
  exact hnodup.of_append_left

/-- A repetition that is too large is the first fault of a clause. -/
theorem parse_items_of_wide (h9 : chars.length = 9) (name : String) (s : ℕ)
    (hwide : repeatLimit ≤ ((s : Int) - 3).toNat) (hname : IsCaptureName name) (rest : List Char)
    (r : Regex) :
    parse ((group (concat ((ofChars chars).items s name))).text ++ rest) ≠ .ok r := by
  let cells := ofChars chars
  let row := cells.rowItems name [0, 1, 2]
  let after := cells.rowItems name [4] ++ [.ahead (concat (cells.afterItems s name))]
  let tail := ')' :: ((cells.rowItems name [3]).flatMap text ++
    ')' :: (after.flatMap text ++ ')' :: rest))
  have htext : (group (concat (cells.items s name))).text ++ rest =
      "(?:".toList ++ ("(?<=".toList ++ (row.flatMap text ++ ("(?:".toList ++
        ((anyTimes ((s : Int) - 3).toNat).text ++ tail)))) := by
    simp [items, beforeItems, gap, text_concat, row, after, tail]
  have hrow := fun top outer i more => parseTokens_flatMap_text row
    (fun r hr => (legible_rowItems name cells _ hname r hr).readsBack) top outer ⟨0, []⟩ i
    more ⟨nodup_names_rowItems chars h9 name s, by simp⟩
  have hfault : parseTokens ⟨.group, 0, [], []⟩ [] ⟨0, []⟩
      (tokens 0 ((group (concat (cells.items s name))).text ++ rest)) = .error .repetition := by
    rw [htext]
    simp [tokens, parseTokens, Numbering.open, hrow, tokens_anyTimes, hwide]
  rw [parse, hfault]
  intro h
  cases h

theorem stride_lt_of_fixedBehinds (h9 : chars.length = 9) (name : String) {s : ℕ} (hs : 3 ≤ s)
    (h : (concat ((ofChars chars).items s name)).fixedBehinds = true) : s < repeatLimit := by
  obtain ⟨n, rfl⟩ := Nat.exists_eq_add_of_le' hs
  rw [fixedBehinds_concat, items, width_beforeItems name chars h9] at h
  simp only [List.all_cons, fixedBehinds, Option.getD_some, Bool.and_eq_true,
    decide_eq_true_eq] at h
  omega

end Neighborhood

namespace Rule

variable {rule : Rule} {s : ℕ} {p : Pattern}

/-- What a pattern is written from. -/
theorem pattern_spec (hbirth : 0 ∉ rule.birth) (hs : 3 ≤ s) (hp : rule.pattern s = .ok p) :
    p.clauses = rule.compiledClauses s ∧
      p.template = String.join (rule.captureNames.map Template.reference) := by
  rw [pattern_of_clauses_ok (clauses_eq_ok hbirth hs)] at hp
  rw [← template_compiledClauses rule s]
  exact Pattern.spec_of_mapError hp

/-- A rule with clauses has a pattern only at strides below the limit of repetitions. -/
theorem stride_lt_of_pattern (hbirth : 0 ∉ rule.birth) (hs : 3 ≤ s) (hp : rule.pattern s = .ok p)
    (hne : rule.clauseItems s ≠ []) : s < repeatLimit := by
  have hparse := p.regex_eq
  rw [(pattern_spec hbirth hs hp).1, alternation_eq _ _ (patterns_compiledClauses rule s) hne]
    at hparse
  obtain ⟨items, more, hitems⟩ := List.exists_cons_of_ne_nil hne
  have hfirst : items ∈ rule.clauseItems s := hitems ▸ List.mem_cons_self
  obtain ⟨chars, i, h9, -, hchars⟩ := mem_clauseItems hfirst
  by_cases hwide : repeatLimit ≤ ((s : Int) - 3).toNat
  · exfalso
    obtain ⟨rest, hrest⟩ : ∃ rest, List.intercalate ['|']
        (((items :: more).map fun items => group (concat items)).map Regex.text) =
          (group (concat items)).text ++ rest := by
      cases more with
      | nil => exact ⟨[], by simp [List.intercalate]⟩
      | cons next more => exact ⟨_, by rw [List.map_cons, List.map_cons, List.map_cons]; rfl⟩
    rw [hitems, hrest, hchars] at hparse
    exact parse_items_of_wide chars h9 _ s hwide (isCaptureName_captureName i) rest _ hparse
  · have hlegible : ∀ r ∈ (rule.clauseItems s).map fun items => group (concat items),
        Legible r := by
      intro r hr
      obtain ⟨items, hitems, rfl⟩ := List.mem_map.mp hr
      obtain ⟨chars, i, h9, -, rfl⟩ := mem_clauseItems hitems
      exact .group _ (legible_items chars h9 _ s hs (by omega) (isCaptureName_captureName i))
    have hnames : (((rule.clauseItems s).map fun items => group (concat items)).flatMap
        names).Nodup := by
      rw [List.flatMap_map]
      simpa only [Regex.names, names_concat, names_clauseItems] using rule.nodup_captureNames
    rw [parse_intercalate_text_eq _ (by simpa using hne) hlegible hnames] at hparse
    split at hparse
    · rename_i hall
      have hgroup := List.all_eq_true.mp hall _ (List.mem_map_of_mem hfirst)
      rw [hchars] at hgroup
      exact stride_lt_of_fixedBehinds chars h9 _ hs hgroup
    · cases hparse

/-- The clauses of a pattern are joinable. -/
theorem joinable_of_pattern (hbirth : 0 ∉ rule.birth) (hs : 3 ≤ s) (hp : rule.pattern s = .ok p) :
    Joinable (rule.clauseItems s) := by
  by_cases hne : rule.clauseItems s = []
  · rw [hne]
    exact ⟨by simp, by simp, by simp⟩
  · exact joinable_clauseItems rule hs (stride_lt_of_pattern hbirth hs hp hne)

/-- The expression of a pattern and the captures that its template refers to. -/
theorem regex_of_pattern (hbirth : 0 ∉ rule.birth) (hs : 3 ≤ s) (hp : rule.pattern s = .ok p) :
    p.regex = clauseChoice (rule.clauseItems s) ∧
      Template.ofText p.regex.names p.template = .ok (rule.captureNames.map .capture) := by
  obtain ⟨hown, htemplate⟩ := pattern_spec hbirth hs hp
  obtain ⟨q, hq, hregex, hread⟩ := exists_pattern_of_perm (joinable_of_pattern hbirth hs hp)
    (patterns_compiledClauses rule s) (.refl _) (.refl rule.captureNames)
  obtain rfl : p = q := by
    rw [← hown, ← htemplate, (Pattern.ofClauses_eq_ok_iff _ _ p).mpr ⟨rfl, rfl⟩] at hq
    exact Except.ok.inj hq
  exact ⟨hregex, hread⟩

theorem exists_clauses_of_pattern {stride : ℤ} (hp : rule.pattern stride = .ok p) :
    ∃ found, rule.clauses stride = .ok found := by
  cases hclauses : rule.clauses stride with
  | ok found => exact ⟨found, rfl⟩
  | error e =>
      rw [pattern_of_clauses_error hclauses] at hp
      cases hp

theorem clauses_of_pattern_eq_clause {stride : ℤ} {e : Clause.Error}
    (h : rule.pattern stride = .error (.clause e)) : rule.clauses stride = .error e := by
  cases hclauses : rule.clauses stride with
  | error e' =>
      rw [pattern_of_clauses_error hclauses, Except.error.injEq, Pattern.Error.clause.injEq] at h
      rw [h]
  | ok found =>
      rw [pattern_of_clauses_ok hclauses] at h
      cases hp : Pattern.ofClauses found (template found) <;> rw [hp] at h <;> cases h

theorem zero_not_mem_birth_of_pattern (hp : rule.pattern s = .ok p) : 0 ∉ rule.birth := by
  obtain ⟨found, hfound⟩ := exists_clauses_of_pattern hp
  exact (exists_stride_of_clauses hfound).1

/-- What one pass of a pattern does. -/
theorem apply_of_pattern (hs : 3 ≤ s) (hp : rule.pattern s = .ok p) (b : String) :
    p.apply b =
      .ok (String.ofList (b.toList.mapIdx fun i c =>
          if rule.Flips s b.toList i then flipped c else c),
        (List.range b.toList.length).countP fun i => rule.Flips s b.toList i) := by
  have hbirth := zero_not_mem_birth_of_pattern hp
  obtain ⟨hregex, hread⟩ := regex_of_pattern hbirth hs hp
  exact apply_of_perm hbirth hs (.refl _) (.refl _) hregex hread b

/-- At every stride a pattern can be applied, and keeps the length of the buffer. -/
theorem exists_apply_of_pattern (hp : rule.pattern s = .ok p) (b : String) :
    ∃ out count, p.apply b = .ok (out, count) ∧ out.length = b.length := by
  obtain ⟨found, hfound⟩ := exists_clauses_of_pattern hp
  obtain ⟨-, s', hs', -, hpattern⟩ := exists_stride_of_clauses hfound
  refine ⟨_, _, apply_of_pattern hs' (hpattern.symm.trans hp) b, ?_⟩
  rw [String.length_ofList, List.length_mapIdx, String.length_toList]

/-- Clauses make no pattern only if their repetitions are too long. -/
theorem limit_le_of_pattern_eq_expression {e : ParseError}
    (h : rule.pattern s = .error (.expression e)) : repeatLimit ≤ s := by
  cases hclauses : rule.clauses s with
  | error e' =>
      rw [pattern_of_clauses_error hclauses] at h
      cases h
  | ok found =>
      obtain ⟨hbirth, s', hs', hle, hpattern⟩ := exists_stride_of_clauses hclauses
      by_contra hlimit
      have hsmall : 3 < repeatLimit := by decide
      obtain ⟨p, hp, -⟩ := rule.exists_pattern hbirth hs' (by omega)
      rw [hpattern, hp] at h
      cases h

/-! ## Other orders -/

/-- Clauses in another order and references in another order make a pattern with the same passes. -/
theorem pattern_order (hbirth : 0 ∉ rule.birth) (hs : 3 ≤ s) (hp : rule.pattern s = .ok p)
    {clauses : List Clause} (hclauses : clauses.Perm p.clauses) {names : List String}
    (hnames : names.Perm (p.clauses.flatMap Clause.captures)) :
    p.template = String.join ((p.clauses.flatMap Clause.captures).map Template.reference) ∧
      ∃ p', Pattern.ofClauses clauses (String.join (names.map Template.reference)) = .ok p' ∧
        ∀ b, p'.apply b = p.apply b := by
  have hjoinable := joinable_of_pattern hbirth hs hp
  obtain ⟨hown, htemplate⟩ := pattern_spec hbirth hs hp
  rw [hown, captures_compiledClauses] at hnames ⊢
  refine ⟨htemplate, ?_⟩
  obtain ⟨windows, rfl, hwindows⟩ :=
    (congrFun (congrFun (List.eq_map_comp_perm _) clauses) _).mpr (hown ▸ hclauses)
  obtain ⟨p', hp', hregex', hread'⟩ :=
    exists_pattern_of_perm hjoinable (patterns_compiled s windows) (hwindows.map _) hnames
  refine ⟨p', hp', fun b => ?_⟩
  rw [apply_of_perm hbirth hs (hwindows.map _) hnames hregex' hread', apply_of_pattern hs hp]

end Rule

end SubstitutionAutomata
