import SubstitutionAutomata.Machine.Pattern
import SubstitutionAutomata.Proofs.Machine.Clause
import SubstitutionAutomata.Proofs.Pattern.Alternation
import Mathlib.Data.List.Perm.Basic

/-! # The pattern of a machine

A definition that was read always has a pattern. Its template puts the next head record together
from what the clause that matched has captured. -/

namespace SubstitutionAutomata

open Regex Text

/-! ## Clauses that read back -/

namespace Transition

variable {t : Transition} {states symbols : List String} (i : ℕ)

theorem legible_clauseItems : ∀ r ∈ t.clauseItems states symbols i, Legible r := by
  have hrecord : ∀ r ∈ (t.recordPieces states symbols i).flatMap Piece.items, Legible r := by
    intro r hr
    obtain ⟨piece, hpiece, hr⟩ := List.mem_flatMap.mp hr
    apply Piece.legible_of_mem_items hr
    intro name hname
    have hnames : name ∈ t.captureNames i := by
      rcases name_recordPieces hpiece hname with ⟨rfl, -⟩ | ⟨rfl, -⟩ <;> simp [captureNames]
    obtain ⟨start, hstart, rfl⟩ := t.exists_start_of_mem_captureNames i hnames
    exact isCaptureName_numbered_of_mem hstart i
  have hcell : Legible (.capture (cursorCapture i) .word) := by
    refine .capture _ [.word] (isCaptureName_numbered_of_mem cursorStart_mem i) fun r hr => ?_
    obtain rfl := List.mem_singleton.mp hr
    exact .word
  intro r hr
  rw [clauseItems] at hr
  split at hr
  · rcases List.mem_append.mp hr with hr | hr
    · exact hrecord r hr
    · obtain rfl := List.mem_singleton.mp hr
      exact hcell
  · rcases List.mem_cons.mp hr with rfl | hr
    · exact hcell
    · exact hrecord r hr

theorem fixedBehinds_clauseItems :
    ∀ r ∈ t.clauseItems states symbols i, r.fixedBehinds = true := by
  have hrecord : ∀ r ∈ (t.recordPieces states symbols i).flatMap Piece.items,
      r.fixedBehinds = true := by
    intro r hr
    obtain ⟨piece, -, hr⟩ := List.mem_flatMap.mp hr
    exact Piece.fixedBehinds_of_mem_items hr
  intro r hr
  rw [clauseItems] at hr
  split at hr
  · rcases List.mem_append.mp hr with hr | hr
    · exact hrecord r hr
    · obtain rfl := List.mem_singleton.mp hr
      rfl
  · rcases List.mem_cons.mp hr with rfl | hr
    · rfl
    · exact hrecord r hr

/-- A clause opens the cell's capture first if the head moves to the left. -/
theorem names_clauseItems (hnext : t.next ∈ states) (hwritten : t.written ∈ symbols)
    (hstates : states.Nodup) (hsymbols : symbols.Nodup) :
    ((t.clauseItems states symbols i).flatMap names).Perm (t.captureNames i) := by
  have hrecord := @names_recordPieces t states symbols i hnext hwritten hstates hsymbols
  rw [clauseItems]
  split
  · rw [List.flatMap_append, Piece.names_flatMap_items, hrecord]
    exact .refl _
  · rw [List.flatMap_cons, Piece.names_flatMap_items, hrecord]
    exact List.perm_append_comm

def compiled (t : Transition) (states symbols : List String) (i : ℕ) : Clause :=
  ⟨toString (t.regex states symbols i), t.text, t.captureNames i⟩

theorem clause_eq_ok (hnext : t.next ∈ states) (hwritten : t.written ∈ symbols) :
    t.clause states symbols i = .ok (t.compiled states symbols i) := by
  simp [clause, hnext, hwritten, compiled, captureNames]

theorem toList_pattern_compiled :
    (t.compiled states symbols i).pattern.toList =
      (concat (t.clauseItems states symbols i)).text := by
  rw [← regex_eq]
  exact String.toList_ofList

end Transition

namespace Definition

variable {d : Definition}

/-- The items of the clauses of a machine. -/
def clauseItems (d : Definition) : List (List Regex) :=
  d.transitions.zipIdx.map fun (t, i) => t.clauseItems d.states d.symbols i

def compiledClauses (d : Definition) : List Clause :=
  d.transitions.zipIdx.map fun (t, i) => t.compiled d.states d.symbols i

/-- The captures of all clauses. -/
def captureNames (d : Definition) : List String :=
  d.transitions.zipIdx.flatMap fun (t, i) => t.captureNames i

theorem nodup_captureNames (d : Definition) : d.captureNames.Nodup := by
  rw [captureNames, List.nodup_flatMap]
  refine ⟨fun entry _ => entry.1.nodup_captureNames entry.2, ?_⟩
  have hindices : (d.transitions.zipIdx.map Prod.snd).Nodup := by
    rw [List.zipIdx_map_snd]
    exact List.nodup_range'
  refine (List.pairwise_map.mp hindices).imp ?_
  rintro ⟨t, i⟩ ⟨t', j⟩ hne name hname hname'
  obtain ⟨start, hstart, rfl⟩ := t.exists_start_of_mem_captureNames i hname
  obtain ⟨start', hstart', hnames⟩ := t'.exists_start_of_mem_captureNames j hname'
  exact hne ((numbered_eq_iff hstart hstart' i j).mp hnames).2

theorem transitionClauses_eq_ok (states symbols : List String) (index : ℕ) (ts : List Transition)
    (h : ∀ t ∈ ts, t.next ∈ states ∧ t.written ∈ symbols) :
    transitionClauses states symbols index ts =
      .ok ((ts.zipIdx index).map fun (t, i) => t.compiled states symbols i) := by
  induction ts generalizing index with
  | nil => rfl
  | cons t ts ih =>
      obtain ⟨hnext, hwritten⟩ := h t (by simp)
      rw [transitionClauses, Transition.clause_eq_ok index hnext hwritten,
        ih (index + 1) fun other hother => h other (List.mem_cons_of_mem t hother),
        List.zipIdx_cons, List.map_cons]

theorem clauses_eq_ok (d : Definition) : d.clauses = .ok d.compiledClauses :=
  transitionClauses_eq_ok d.states d.symbols 0 d.transitions fun _ h =>
    ⟨next_mem h, written_mem h⟩

theorem names_clauseItems (d : Definition) :
    (d.clauseItems.flatMap fun items => items.flatMap names).Perm d.captureNames := by
  rw [clauseItems, List.flatMap_map, captureNames]
  apply List.Perm.flatMap_left
  rintro ⟨t, i⟩ hmem
  have ht := List.fst_mem_of_mem_zipIdx hmem
  exact Transition.names_clauseItems i (next_mem ht) (written_mem ht) (nodup_firstSeen _)
    (nodup_firstSeen _)

theorem joinable_clauseItems (d : Definition) : Joinable d.clauseItems where
  legible := by
    intro items hitems
    obtain ⟨⟨t, i⟩, -, rfl⟩ := List.mem_map.mp hitems
    exact Transition.legible_clauseItems i
  names := d.names_clauseItems.nodup_iff.mpr d.nodup_captureNames
  behinds := by
    intro items hitems
    obtain ⟨⟨t, i⟩, -, rfl⟩ := List.mem_map.mp hitems
    exact Transition.fixedBehinds_clauseItems i

/-! ## The template -/

/-- The captures whose names start alike. -/
def namesOf (d : Definition) (start : String) : List String :=
  d.captureNames.filter (·.startsWith start)

theorem referable_of_mem_captureNames {name : String} (h : name ∈ d.captureNames) :
    Template.Referable name := by
  obtain ⟨⟨t, i⟩, -, hname⟩ := List.mem_flatMap.mp h
  obtain ⟨start, hstart, rfl⟩ := t.exists_start_of_mem_captureNames i hname
  exact (isCaptureName_numbered_of_mem hstart i).referable

theorem references_compiledClauses (d : Definition) (start : String) :
    references d.compiledClauses start =
      String.join ((d.namesOf start).map Template.reference) := by
  rw [references, compiledClauses, List.flatMap_map]
  rfl

/-- The template as it is read. -/
def templateParts (d : Definition) : Template :=
  (d.namesOf "new_left_").map .capture ++
    ((headMark :: (d.listing.toList ++ ['-'])).map .char ++
      ((d.namesOf "new_state_").map .capture ++
        ([':'].map .char ++
          ((d.namesOf "new_cursor_").map .capture ++
            ([headMark].map .char ++ (d.namesOf "new_right_").map .capture)))))

theorem parts_template (d : Definition) :
    Template.parts (d.template d.compiledClauses).toList = d.templateParts := by
  have hreferable : ∀ start, ∀ name ∈ d.namesOf start, Template.Referable name :=
    fun start name h => referable_of_mem_captureNames (List.mem_filter.mp h).1
  have hlast := Template.parts_references_append (d.namesOf "new_right_") []
    (hreferable "new_right_")
  have hcolon : ∀ rest, Template.parts (":".toList ++ rest) =
      [':'].map .char ++ Template.parts rest :=
    fun rest => Template.parts_cons_of_ne ':' rest (by decide)
  rw [List.append_nil, Template.parts, List.append_nil] at hlast
  simp only [template, references_compiledClauses, String.toList_append, List.append_assoc,
    Template.escape, String.toList_ofList, hcolon, hlast,
    Template.parts_references_append _ _ (hreferable _), Template.parts_escapeBackslashes_append]
  rfl

/-- A definition has a pattern, and the template of the pattern refers to every capture once. -/
theorem exists_pattern (d : Definition) :
    ∃ p, d.pattern = .ok p ∧ p.regex = clauseChoice d.clauseItems ∧
      Template.ofText p.regex.names p.template = .ok d.templateParts := by
  have hwritten : d.compiledClauses.map (fun c => c.pattern.toList) =
      d.clauseItems.map fun items => (concat items).text := by
    rw [compiledClauses, clauseItems, List.map_map, List.map_map]
    apply List.map_congr_left
    rintro ⟨t, i⟩ -
    exact Transition.toList_pattern_compiled i
  obtain ⟨p, hp, -, htemplate, hregex⟩ := Pattern.ofClauses_of_joinable d.compiledClauses
    d.clauseItems (d.template d.compiledClauses) hwritten d.joinable_clauseItems
  have hpattern : d.pattern = .ok p := by
    simp only [pattern, d.clauses_eq_ok, hp]
    rfl
  refine ⟨p, hpattern, hregex, ?_⟩
  rw [Template.ofText_eq_ok, htemplate, parts_template]
  rw [htemplate, parts_template]
  intro name hname
  have hmem : name ∈ d.captureNames := by
    simp only [templateParts, List.mem_append, List.mem_map, TemplatePart.capture.injEq,
      exists_eq_right, reduceCtorEq, and_false, exists_false, false_or] at hname
    rcases hname with h | h | h | h <;> exact (List.mem_filter.mp h).1
  rw [hregex, names_clauseChoice]
  exact (names_clauseItems d).mem_iff.mpr hmem

/-- The pattern of a definition can be applied to every buffer. -/
theorem exists_apply {p : Pattern} (hp : d.pattern = .ok p) (buffer : String) :
    ∃ result, p.apply buffer = .ok result := by
  obtain ⟨p', hp', -, htemplate⟩ := d.exists_pattern
  obtain rfl := Except.ok.inj (hp'.symm.trans hp)
  exact ⟨p'.regex.substitute d.templateParts buffer, by rw [Pattern.apply, htemplate]⟩

/-! ## Expansion -/

variable {t : Transition} {i : ℕ} (text : Array Char) (p : ℕ) (m : Match)

theorem mem_captureNames (hmem : (t, i) ∈ d.transitions.zipIdx) {name : String}
    (h : name ∈ t.captureNames i) : name ∈ d.captureNames :=
  List.mem_flatMap.mpr ⟨(t, i), hmem, h⟩

/-- Of the captures whose names start alike, at most the one of the matched clause took part. -/
theorem expand_namesOf (hmem : (t, i) ∈ d.transitions.zipIdx)
    (hnames : ∀ name span, (name, span) ∈ m.captures → name ∈ t.captureNames i)
    {start : String} (hstart : start ∈ captureStarts) :
    Template.expand ((d.namesOf start).map .capture) text p m =
      m.captured text (start ++ toString i) := by
  have hother : ∀ other ∈ d.namesOf start, other ≠ start ++ toString i →
      m.captured text other = [] := by
    intro other hmem hne
    apply m.captured_of_forall_ne
    intro span hspan
    obtain ⟨start', hstart', rfl⟩ := t.exists_start_of_mem_captureNames i (hnames other span hspan)
    have hword := (List.mem_filter.mp hmem).2
    rw [startsWith_numbered hstart' hstart, decide_eq_true_eq] at hword
    exact hne (by rw [hword])
  by_cases h : start ++ toString i ∈ d.namesOf start
  · exact Template.expand_captures_of_mem text p m _ _ (d.nodup_captureNames.filter _) h hother
  · have hnone : start ++ toString i ∉ t.captureNames i := by
      intro hname
      apply h
      rw [namesOf, List.mem_filter, startsWith_numbered hstart hstart]
      exact ⟨mem_captureNames hmem hname, by simp⟩
    rw [m.captured_of_forall_ne text _ fun span hspan => hnone (hnames _ span hspan)]
    exact Template.expand_captures_of_forall text p m _ fun other ho =>
      hother other ho fun he => h (he ▸ ho)

/-- The template writes the symbol on the side that the head leaves, and the next record on the
other side of it. -/
theorem expand_templateParts (hmem : (t, i) ∈ d.transitions.zipIdx) {c : Char}
    (hm : Transition.MatchesRecord text d.states d.symbols t i p c m) :
    Template.expand d.templateParts text p m =
      if t.direction = .right then t.written.toList ++ recordText d t.next.toList [c]
      else recordText d t.next.toList [c] ++ t.written.toList := by
  have hexpand := fun start hstart => @expand_namesOf d t i text p m hmem hm.names start hstart
  have hnone : ∀ start ∈ captureStarts,
      ¬ (start = "new_state_" ∨ start = t.writtenStart ∨ start = "new_cursor_") →
      m.captured text (start ++ toString i) = [] := by
    intro start hstart h
    apply m.captured_of_forall_ne
    intro span hspan
    exact h ((t.mem_captureNames_iff i hstart).mp (hm.names _ span hspan))
  have hstate : m.captured text ("new_state_" ++ toString i) = t.next.toList := hm.state
  have hcursor : m.captured text ("new_cursor_" ++ toString i) = [c] := hm.cursor
  have hwritten : m.captured text (t.writtenStart ++ toString i) = t.written.toList := by
    rw [← Transition.writtenCapture_eq]
    exact hm.written
  simp only [templateParts, Template.expand_append, Template.expand_chars,
    hexpand "new_left_" (by decide), hexpand "new_right_" (by decide),
    hexpand "new_state_" (by decide), hexpand "new_cursor_" (by decide), hstate, hcursor]
  by_cases hright : t.direction = .right
  · have hstart : t.writtenStart = "new_left_" := if_pos hright
    rw [hstart] at hwritten hnone
    rw [hwritten, hnone "new_right_" (by decide) (by decide), if_pos hright]
    simp [recordText]
  · have hstart : t.writtenStart = "new_right_" := if_neg hright
    rw [hstart] at hwritten hnone
    rw [hwritten, hnone "new_left_" (by decide) (by decide), if_neg hright]
    simp [recordText]

end Definition

end SubstitutionAutomata
