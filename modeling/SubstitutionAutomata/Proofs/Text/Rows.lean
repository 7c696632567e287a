import SubstitutionAutomata.Proofs.Text.Lines
import SubstitutionAutomata.Text.Blank
import Mathlib.Data.List.DropRight

/-! # Rows of a text

The rows of a text are its lines without the blanks around them, without the lines that are blank.
A text has given rows exactly if it is these rows in order with blanks around them and a line break
between any two. -/

namespace SubstitutionAutomata.Text

/-- The lines of a text without the blanks around them; blank lines do not count. -/
def rowsOf (s : List Char) : List (List Char) :=
  ((splitBreaks (joinReturns s)).map strip).filter (· ≠ [])

/-- A piece of a line whose first and last characters are no blanks. -/
structure IsRow (row : List Char) : Prop where
  ne_nil : row ≠ []
  line : ∀ c ∈ row, isBreak c = false
  first : ∀ c ∈ row.head?, isBlank c = false
  last : ∀ c ∈ row.getLast?, isBlank c = false

/-- Rows with blanks before and after each, a line break among the blanks between any two. -/
inductive Spaced : List Char → List (List Char) → Prop where
  | nil {s : List Char} (h : ∀ c ∈ s, isBlank c = true) : Spaced s []
  | cons {before row after s : List Char} {rows : List (List Char)}
      (hbefore : ∀ c ∈ before, isBlank c = true) (hrow : IsRow row)
      (hafter : ∀ c ∈ after, isBlank c = true)
      (hbreak : rows ≠ [] → ∃ c ∈ after, isBreak c = true) (rest : Spaced s rows) :
      Spaced (before ++ (row ++ (after ++ s))) (row :: rows)

/-! ## Stripping -/

theorem strip_eq (s : List Char) : strip s = (s.dropWhile isBlank).rdropWhile isBlank := rfl

theorem exists_eq_append_strip (s : List Char) :
    ∃ before after, s = before ++ (strip s ++ after) ∧ (∀ c ∈ before, isBlank c = true) ∧
      ∀ c ∈ after, isBlank c = true := by
  refine ⟨s.takeWhile isBlank, (s.dropWhile isBlank).rtakeWhile isBlank, ?_,
    fun _ hc => List.mem_takeWhile_imp hc, fun _ hc => List.mem_rtakeWhile_imp hc⟩
  rw [strip_eq, List.rdropWhile_append_rtakeWhile, List.takeWhile_append_dropWhile]

theorem strip_append_left {before : List Char} (h : ∀ c ∈ before, isBlank c = true)
    (s : List Char) : strip (before ++ s) = strip s := by
  rw [strip_eq, strip_eq, List.dropWhile_append_of_pos h]

theorem strip_eq_nil_iff (s : List Char) : strip s = [] ↔ ∀ c ∈ s, isBlank c = true := by
  constructor
  · intro h
    obtain ⟨before, after, hs, hbefore, hafter⟩ := exists_eq_append_strip s
    rw [h, List.nil_append] at hs
    rw [hs]
    exact List.forall_mem_append.mpr ⟨hbefore, hafter⟩
  · intro h
    rw [← List.append_nil s, strip_append_left h]
    rfl

/-- Blanks after a piece that starts and ends with no blank are taken away. -/
theorem IsRow.strip_append {row : List Char} (h : IsRow row) {after : List Char}
    (hafter : ∀ c ∈ after, isBlank c = true) : strip (row ++ after) = row := by
  obtain ⟨c, rest, rfl⟩ := List.exists_cons_of_ne_nil h.ne_nil
  have hfirst : isBlank c = false := h.first c rfl
  have hlast : ¬ isBlank ((c :: rest).getLast h.ne_nil) = true := by
    rw [h.last _ (List.getLast?_eq_some_getLast h.ne_nil)]
    decide
  rw [strip_eq, List.cons_append, List.dropWhile_cons_of_neg (by simp [hfirst]), ← List.cons_append,
    List.rdropWhile, List.reverse_append, List.dropWhile_append_of_pos (by simpa using hafter),
    ← List.rdropWhile]
  exact List.rdropWhile_eq_self_iff.mpr fun _ => hlast

theorem isRow_strip {line : List Char} (hline : ∀ c ∈ line, isBreak c = false)
    (h : strip line ≠ []) : IsRow (strip line) where
  ne_nil := h
  line := by
    obtain ⟨before, after, hs, -, -⟩ := exists_eq_append_strip line
    intro c hc
    apply hline c
    rw [hs, List.mem_append, List.mem_append]
    exact .inr (.inl hc)
  first := by
    intro c hc
    have hdrop := List.head?_dropWhile_not isBlank line
    obtain ⟨rest, hrest⟩ : ∃ rest, line.dropWhile isBlank = c :: rest := by
      obtain ⟨t, ht⟩ := List.rdropWhile_prefix isBlank (l := line.dropWhile isBlank)
      obtain ⟨rest, hstrip⟩ := List.head?_eq_some_iff.mp hc
      rw [← strip_eq, hstrip] at ht
      exact ⟨rest ++ t, ht.symm⟩
    simpa [hrest] using hdrop
  last := by
    intro c hc
    rw [List.getLast?_eq_some_getLast h] at hc
    obtain rfl := Option.some.inj hc
    exact Bool.eq_false_iff.mpr (List.rdropWhile_last_not isBlank (line.dropWhile isBlank) h)

/-! ## The rows that are read -/

theorem rowsOf_eq_of_cut {s : List Char} {lines : List (List Char)} (h : Cut s lines) :
    rowsOf s = (lines.map strip).filter (· ≠ []) := by
  rw [rowsOf, h.splitBreaks_eq]

theorem rowsOf_feed (s : List Char) : rowsOf ('\n' :: s) = rowsOf s := by
  rw [rowsOf, joinReturns_cons_of_ne (by decide), splitBreaks, if_pos (by decide)]
  rfl

/-- A break ends a line. What is read after it has the rows of the text after it, whether or not a
line feed belongs to the break. -/
theorem exists_joinReturns_break {c : Char} (h : isBreak c = true) (s : List Char) :
    ∃ c' s', isBreak c' = true ∧ joinReturns (c :: s) = c' :: joinReturns s' ∧
      rowsOf s' = rowsOf s := by
  by_cases hc : c = '\r'
  · subst hc
    by_cases hs : s.head? = some '\n'
    · obtain ⟨s', rfl⟩ := List.head?_eq_some_iff.mp hs
      exact ⟨'\n', s', by decide, by rw [joinReturns], (rowsOf_feed s').symm⟩
    · exact ⟨'\n', s, by decide, joinReturns_return hs, rfl⟩
  · exact ⟨c, s, h, joinReturns_cons_of_ne hc s, rfl⟩

theorem rowsOf_line_append {line : List Char} (hline : ∀ c ∈ line, isBreak c = false) {c : Char}
    (hc : isBreak c = true) (s : List Char) :
    rowsOf (line ++ c :: s) = [strip line].filter (· ≠ []) ++ rowsOf s := by
  obtain ⟨c', s', hc', hjoin, hrows⟩ := exists_joinReturns_break hc s
  rw [rowsOf, joinReturns_append hline, hjoin, splitBreaks_append hline hc', List.map_cons,
    ← List.singleton_append, List.filter_append, ← hrows, rowsOf]

theorem rowsOf_blank_append {before : List Char} (h : ∀ c ∈ before, isBlank c = true)
    (s : List Char) : rowsOf (before ++ s) = rowsOf s := by
  induction before with
  | nil => rfl
  | cons c before ih =>
      rw [List.forall_mem_cons] at h
      rw [List.cons_append, ← ih h.2]
      by_cases hc : isBreak c = true
      · exact rowsOf_line_append (List.forall_mem_nil _) hc (before ++ s)
      · -- the blank stands in a line, which is stripped
        have hne : c ≠ '\r' := by
          rintro rfl
          exact hc isBreak_return
        rw [rowsOf, joinReturns_cons_of_ne hne, splitBreaks, if_neg hc, rowsOf]
        cases splitBreaks (joinReturns (before ++ s)) with
        | nil => simp [(strip_eq_nil_iff [c]).mpr (by simpa using h.1)]
        | cons line lines =>
            have hstrip : strip (c :: line) = strip line :=
              strip_append_left (List.forall_mem_singleton.mpr h.1) line
            simp only [List.map_cons, hstrip]

/-- A row is read as such if a break is among the blanks after it. -/
theorem rowsOf_row_append {row after : List Char} (hrow : IsRow row)
    (hafter : ∀ c ∈ after, isBlank c = true) (hbreak : ∃ c ∈ after, isBreak c = true)
    (s : List Char) : rowsOf (row ++ (after ++ s)) = row :: rowsOf s := by
  obtain ⟨c, hfound⟩ := Option.isSome_iff_exists.mp (List.find?_isSome.mpr hbreak)
  obtain ⟨hc, line, more, rfl, hline⟩ := List.find?_eq_some_iff_append.mp hfound
  obtain ⟨hblank, hmore⟩ := List.forall_mem_append.mp hafter
  have hpiece : ∀ c ∈ row ++ line, isBreak c = false :=
    List.forall_mem_append.mpr ⟨hrow.line, by simpa using hline⟩
  have hread := rowsOf_line_append hpiece hc (more ++ s)
  rw [hrow.strip_append hblank, rowsOf_blank_append (List.forall_mem_cons.mp hmore).2] at hread
  simpa [hrow.ne_nil] using hread

theorem rowsOf_row_of_blank {row after : List Char} (hrow : IsRow row)
    (hafter : ∀ c ∈ after, isBlank c = true) : rowsOf (row ++ after) = [row] := by
  by_cases hbreak : ∃ c ∈ after, isBreak c = true
  · simpa [rowsOf_eq_of_cut .nil] using rowsOf_row_append hrow hafter hbreak []
  · have hpiece : ∀ c ∈ row ++ after, isBreak c = false := by
      refine List.forall_mem_append.mpr ⟨hrow.line, ?_⟩
      simpa using hbreak
    rw [rowsOf_eq_of_cut (.last (by simp [hrow.ne_nil]) hpiece)]
    simp [hrow.strip_append hafter, hrow.ne_nil]

theorem Spaced.rowsOf_eq {s : List Char} {rows : List (List Char)} (h : Spaced s rows) :
    rowsOf s = rows := by
  induction h with
  | nil h => simpa [rowsOf_eq_of_cut .nil] using rowsOf_blank_append h []
  | @cons before row after s rows hbefore hrow hafter hbreak rest ih =>
      rw [rowsOf_blank_append hbefore]
      by_cases hrows : rows = []
      · subst hrows
        cases rest with
        | nil hs => exact rowsOf_row_of_blank hrow (List.forall_mem_append.mpr ⟨hafter, hs⟩)
      · rw [rowsOf_row_append hrow hafter (hbreak hrows), ih]

/-! ## Every text is spaced rows -/

theorem Spaced.blank_append {before s : List Char} {rows : List (List Char)}
    (hbefore : ∀ c ∈ before, isBlank c = true) (h : Spaced s rows) : Spaced (before ++ s) rows := by
  cases h with
  | nil h => exact .nil (List.forall_mem_append.mpr ⟨hbefore, h⟩)
  | cons hblank hrow hafter hbreak rest =>
      rw [← List.append_assoc]
      exact .cons (List.forall_mem_append.mpr ⟨hbefore, hblank⟩) hrow hafter hbreak rest

/-- A line in front of spaced rows is one more row, or no row if it is blank. -/
theorem Spaced.line_append {line ending s : List Char} {rows : List (List Char)}
    (hline : ∀ c ∈ line, isBreak c = false) (hending : ∀ c ∈ ending, isBlank c = true)
    (hbreak : rows ≠ [] → ∃ c ∈ ending, isBreak c = true) (h : Spaced s rows) :
    Spaced (line ++ (ending ++ s)) ([strip line].filter (· ≠ []) ++ rows) := by
  by_cases hblank : strip line = []
  · have hspaced := (h.blank_append hending).blank_append ((strip_eq_nil_iff line).mp hblank)
    simpa [hblank] using hspaced
  · obtain ⟨before, after, hs, hbefore, hafter⟩ := exists_eq_append_strip line
    have hspaced :
        Spaced (before ++ (strip line ++ ((after ++ ending) ++ s))) (strip line :: rows) := by
      refine .cons hbefore (isRow_strip hline hblank)
        (List.forall_mem_append.mpr ⟨hafter, hending⟩) (fun hrows => ?_) h
      obtain ⟨c, hc, hcbreak⟩ := hbreak hrows
      exact ⟨c, List.mem_append_right after hc, hcbreak⟩
    have htext : before ++ (strip line ++ ((after ++ ending) ++ s)) = line ++ (ending ++ s) := by
      conv_rhs => rw [hs]
      simp
    rw [htext] at hspaced
    simpa [hblank] using hspaced

theorem isBlank_of_mem_lineBreaks {ending : String} (h : ending ∈ lineBreaks) :
    (∀ c ∈ ending.toList, isBlank c = true) ∧ ∃ c ∈ ending.toList, isBreak c = true := by
  have hall : lineBreaks.all (fun e => e.toList.all isBlank && e.toList.any isBreak) = true := by
    decide
  simpa only [Bool.and_eq_true, List.all_eq_true, List.any_eq_true] using
    List.all_eq_true.mp hall ending h

theorem Cut.spaced {s : List Char} {lines : List (List Char)} (h : Cut s lines) :
    Spaced s ((lines.map strip).filter (· ≠ [])) := by
  induction h with
  | nil => exact .nil (List.forall_mem_nil _)
  | last _ hline =>
      have hspaced := Spaced.line_append hline (List.forall_mem_nil _) (fun h => absurd rfl h)
        (.nil (List.forall_mem_nil _))
      simpa using hspaced
  | @cons line s lines ending hline hending _ _ ih =>
      obtain ⟨hblank, hbreak⟩ := isBlank_of_mem_lineBreaks hending
      have hspaced := Spaced.line_append hline hblank (fun _ => hbreak) ih
      rwa [← List.filter_append, List.singleton_append, ← List.map_cons] at hspaced

/-- A text has given rows exactly if it is these rows with blanks around them. -/
theorem rowsOf_eq_iff (s : List Char) (rows : List (List Char)) :
    rowsOf s = rows ↔ Spaced s rows := by
  constructor
  · rintro rfl
    obtain ⟨lines, hcut⟩ := exists_cut s
    rw [rowsOf_eq_of_cut hcut]
    exact hcut.spaced
  · exact Spaced.rowsOf_eq

end SubstitutionAutomata.Text
