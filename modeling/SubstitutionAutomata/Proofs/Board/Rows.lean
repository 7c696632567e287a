import SubstitutionAutomata.Engine.Life
import SubstitutionAutomata.Proofs.Board.Layout
import SubstitutionAutomata.Proofs.Text.Rows
import Mathlib.Data.Char
import Mathlib.Data.List.Sort

/-! # Boards from rows

A text loads as a board exactly if it has rows, all of one length and of zeros and ones; the board
then has the digits of the rows, and every text with these rows loads as the same board. Any other
text is refused with its first row that has a fault. -/

namespace SubstitutionAutomata

open Text

/-! ## Runs of equal elements -/

section Runs

variable {α : Type} [BEq α]

theorem eraseReps_loop (a : α) (l seen : List α) :
    List.eraseRepsBy.loop (· == ·) a l seen =
      seen.reverse ++ List.eraseRepsBy.loop (· == ·) a l [] := by
  induction l generalizing a seen with
  | nil => simp [List.eraseRepsBy.loop]
  | cons b l ih =>
      rw [List.eraseRepsBy.loop, List.eraseRepsBy.loop]
      split
      · exact ih a seen
      · rw [ih b (a :: seen), ih b [a]]
        simp

theorem eraseReps_cons_cons (a b : α) (l : List α) :
    (a :: b :: l).eraseReps = if a == b then (a :: l).eraseReps else a :: (b :: l).eraseReps := by
  change List.eraseRepsBy.loop (· == ·) a (b :: l) [] = _
  rw [List.eraseRepsBy.loop]
  split
  · rename_i h
    rw [h]
    rfl
  · rename_i h
    rw [h, eraseReps_loop]
    rfl

theorem mem_eraseReps [LawfulBEq α] (l : List α) (c : α) : c ∈ l.eraseReps ↔ c ∈ l := by
  cases l with
  | nil => rfl
  | cons a l =>
      induction l generalizing a with
      | nil => rfl
      | cons b l ih =>
          rw [eraseReps_cons_cons]
          split
          · rename_i h
            obtain rfl := eq_of_beq h
            simp [ih]
          · simp [ih]

/-- Without its repetitions an ascending list ascends strictly. -/
theorem pairwise_eraseReps [LawfulBEq α] [LinearOrder α] {l : List α} (h : l.Pairwise (· ≤ ·)) :
    l.eraseReps.Pairwise (· < ·) := by
  cases l with
  | nil => exact .nil
  | cons a l =>
      induction l generalizing a with
      | nil => exact List.pairwise_singleton _ _
      | cons b l ih =>
          rw [List.pairwise_cons, List.pairwise_cons] at h
          obtain ⟨ha, hb, hl⟩ := h
          rw [eraseReps_cons_cons]
          split
          · exact ih a (List.pairwise_cons.mpr ⟨fun c hc => ha c (List.mem_cons_of_mem b hc), hl⟩)
          · rename_i hne
            refine List.pairwise_cons.mpr ⟨fun c hc => ?_, ih b (List.pairwise_cons.mpr ⟨hb, hl⟩)⟩
            have hlt : a < b := lt_of_le_of_ne (ha b List.mem_cons_self) (by simpa using hne)
            rcases List.mem_cons.mp ((mem_eraseReps _ c).mp hc) with rfl | hc
            · exact hlt
            · exact hlt.trans_le (hb c hc)

end Runs

namespace Board

/-! ## Rows and their faults -/

/-- Rows of zeros and ones of one length. -/
structure Regular (rows : List (List Char)) : Prop where
  ne_nil : rows ≠ []
  lengths : ∀ row ∈ rows, ∀ row' ∈ rows, row.length = row'.length
  symbols : ∀ row ∈ rows, ∀ c ∈ row, c = '0' ∨ c = '1'

/-- A row of a board of some width. -/
structure Fits (width : ℕ) (row : List Char) : Prop where
  length : row.length = width
  symbols : ∀ c ∈ row, c = '0' ∨ c = '1'

/-- What is wrong with the row at an index. A row of a wrong length is not looked at further; else
all that is no zero or one is reported, each symbol once and in ascending order. -/
inductive Fault (width y : ℕ) (row : List Char) : ParseError → Prop where
  | rowLength (h : row.length ≠ width) : Fault width y row (.rowLength y row.length width)
  | unknownSymbols (h : row.length = width) (symbols : List Char) (hne : symbols ≠ [])
      (hmem : ∀ c, c ∈ symbols ↔ c ∈ row ∧ c ≠ '0' ∧ c ≠ '1') (hsorted : symbols.Pairwise (· < ·)) :
      Fault width y row (.unknownSymbols y symbols)

/-- The fault of the first row that has one; the first of them has the index `start`. -/
def FirstFault (width start : ℕ) (rows : List (List Char)) (e : ParseError) : Prop :=
  ∃ before row after, rows = before ++ row :: after ∧ (∀ r ∈ before, Fits width r) ∧
    Fault width (start + before.length) row e

theorem Fault.not_fits {width y : ℕ} {row : List Char} {e : ParseError}
    (h : Fault width y row e) : ¬ Fits width row := by
  intro hfits
  cases h with
  | rowLength h => exact h hfits.length
  | unknownSymbols _ symbols hne hmem =>
      obtain ⟨c, hc⟩ := List.exists_mem_of_ne_nil symbols hne
      obtain ⟨hrow, hzero, hone⟩ := (hmem c).mp hc
      exact (hfits.symbols c hrow).elim hzero hone

theorem isBoardSymbol_iff (c : Char) : isBoardSymbol c = true ↔ c = '0' ∨ c = '1' := by
  simp [isBoardSymbol]

theorem mem_unknownSymbols_iff (row : List Char) (c : Char) :
    c ∈ unknownSymbols isBoardSymbol row ↔ c ∈ row ∧ c ≠ '0' ∧ c ≠ '1' := by
  rw [unknownSymbols, mem_eraseReps, List.mem_mergeSort, List.mem_filter]
  simp [isBoardSymbol]

theorem pairwise_unknownSymbols (known : Char → Bool) (row : List Char) :
    (unknownSymbols known row).Pairwise (· < ·) := by
  apply pairwise_eraseReps
  have htrans (a b c : Char) :
      decide (a.toNat ≤ b.toNat) = true → decide (b.toNat ≤ c.toNat) = true →
      decide (a.toNat ≤ c.toNat) = true := by
    simpa using Nat.le_trans
  have htotal (a b : Char) : (decide (a.toNat ≤ b.toNat) || decide (b.toNat ≤ a.toNat)) = true := by
    simpa using Nat.le_total a.toNat b.toNat
  refine (List.pairwise_mergeSort htrans htotal _).imp fun h => ?_
  exact UInt32.le_iff_toNat_le.mpr (of_decide_eq_true h)

theorem checkRow_eq_ok_iff (width y : ℕ) (row : List Char) :
    checkRow width y row = .ok () ↔ Fits width row := by
  have hsymbols := unknownSymbols_eq_nil_iff isBoardSymbol row
  simp only [isBoardSymbol_iff] at hsymbols
  rw [checkRow]
  split
  · rename_i h
    exact iff_of_false (fun h => by cases h) fun hfits => h hfits.length
  · rename_i h
    split
    · rename_i hnil
      exact iff_of_true rfl ⟨not_not.mp h, hsymbols.mp hnil⟩
    · rename_i hne
      exact iff_of_false (fun h => by cases h) fun hfits => hne (hsymbols.mpr hfits.symbols)

theorem fault_of_checkRow {width y : ℕ} {row : List Char} {e : ParseError}
    (h : checkRow width y row = .error e) : Fault width y row e := by
  rw [checkRow] at h
  split at h
  · rename_i hlength
    obtain rfl := Except.error.inj h
    exact .rowLength hlength
  · rename_i hlength
    split at h
    · cases h
    · rename_i hne
      obtain rfl := Except.error.inj h
      exact .unknownSymbols (not_not.mp hlength) _ hne (mem_unknownSymbols_iff row)
        (pairwise_unknownSymbols _ row)

theorem Fault.unique {width y : ℕ} {row : List Char} {e e' : ParseError}
    (h : Fault width y row e) (h' : Fault width y row e') : e = e' := by
  cases h with
  | rowLength h =>
      cases h' with
      | rowLength => rfl
      | unknownSymbols h' => exact absurd h' h
  | unknownSymbols h symbols _ hmem hsorted =>
      cases h' with
      | rowLength h' => exact absurd h h'
      | unknownSymbols _ symbols' _ hmem' hsorted' =>
          rw [hsorted.eq_of_mem_iff hsorted' fun c => (hmem c).trans (hmem' c).symm]

theorem checkRow_eq_error_iff (width y : ℕ) (row : List Char) (e : ParseError) :
    checkRow width y row = .error e ↔ Fault width y row e := by
  refine ⟨fault_of_checkRow, fun h => ?_⟩
  cases hcheck : checkRow width y row with
  | ok => exact absurd ((checkRow_eq_ok_iff width y row).mp hcheck) h.not_fits
  | error e' => rw [(fault_of_checkRow hcheck).unique h]

theorem checkRows_eq_ok_iff (width y : ℕ) (rows : List (List Char)) :
    checkRows width y rows = .ok () ↔ ∀ row ∈ rows, Fits width row := by
  induction rows generalizing y with
  | nil => simp [checkRows]
  | cons row rows ih =>
      rw [List.forall_mem_cons, ← ih (y + 1), ← checkRow_eq_ok_iff width y, checkRows]
      cases checkRow width y row <;> simp

theorem firstFault_cons_iff {width start : ℕ} {row : List Char} {rows : List (List Char)}
    {e : ParseError} :
    FirstFault width start (row :: rows) e ↔
      Fault width start row e ∨ Fits width row ∧ FirstFault width (start + 1) rows e := by
  constructor
  · rintro ⟨before, r, after, hsplit, hbefore, hfault⟩
    cases before with
    | nil =>
        obtain ⟨rfl, -⟩ := List.cons.inj hsplit
        exact .inl hfault
    | cons first before =>
        obtain ⟨rfl, hrest⟩ := List.cons.inj hsplit
        obtain ⟨hfirst, hbefore⟩ := List.forall_mem_cons.mp hbefore
        rw [List.length_cons, Nat.add_comm before.length, ← Nat.add_assoc] at hfault
        exact .inr ⟨hfirst, before, r, after, hrest, hbefore, hfault⟩
  · rintro (hfault | ⟨hfits, before, r, after, rfl, hbefore, hfault⟩)
    · exact ⟨[], row, rows, rfl, List.forall_mem_nil _, hfault⟩
    · rw [Nat.add_assoc, Nat.add_comm 1] at hfault
      exact ⟨row :: before, r, after, rfl, List.forall_mem_cons.mpr ⟨hfits, hbefore⟩, hfault⟩

/-- The first fault is reported. -/
theorem checkRows_eq_error_iff (width start : ℕ) (rows : List (List Char)) (e : ParseError) :
    checkRows width start rows = .error e ↔ FirstFault width start rows e := by
  induction rows generalizing start with
  | nil =>
      refine iff_of_false (fun h => by cases h) ?_
      rintro ⟨before, row, after, hsplit, -⟩
      simp at hsplit
  | cons row rows ih =>
      rw [firstFault_cons_iff, ← ih (start + 1), ← checkRow_eq_error_iff,
        ← checkRow_eq_ok_iff width start, checkRows]
      cases checkRow width start row <;> simp

/-! ## The board of some rows -/

/-- The numbers that the digits of some rows stand for. -/
def digits (rows : List (List Char)) : List (List ℕ) :=
  rows.map fun row => row.map fun c => c.toNat - '0'.toNat

theorem digits_eq {rows : List (List Char)} (h : ∀ row ∈ rows, ∀ c ∈ row, c = '0' ∨ c = '1') :
    digits rows = rows.map fun row => row.map fun c => if c = '1' then 1 else 0 := by
  refine List.map_congr_left fun row hrow => List.map_congr_left fun c hc => ?_
  rcases h row hrow c hc with rfl | rfl <;> rfl

/-- Rows of zeros and ones are determined by their digits. -/
theorem digits_injective {rows rows' : List (List Char)}
    (h : ∀ row ∈ rows, ∀ c ∈ row, c = '0' ∨ c = '1')
    (h' : ∀ row ∈ rows', ∀ c ∈ row, c = '0' ∨ c = '1') (heq : digits rows = digits rows') :
    rows = rows' := by
  have hwritten : ∀ {rows : List (List Char)}, (∀ row ∈ rows, ∀ c ∈ row, c = '0' ∨ c = '1') →
      (digits rows).map (List.map Layout.cellChar) = rows := by
    intro rows h
    rw [digits, List.map_map]
    refine (List.map_congr_left fun row hrow => ?_).trans (List.map_id rows)
    rw [Function.comp_apply, List.map_map]
    refine (List.map_congr_left fun c hc => ?_).trans (List.map_id row)
    rcases h row hrow c hc with rfl | rfl <;> rfl
  rw [← hwritten h, heq, hwritten h']

theorem regular_cons_iff {first : List Char} {rest : List (List Char)} :
    Regular (first :: rest) ↔ ∀ row ∈ first :: rest, Fits first.length row := by
  constructor
  · intro h row hrow
    exact ⟨h.lengths row hrow first List.mem_cons_self, h.symbols row hrow⟩
  · intro h
    refine ⟨List.cons_ne_nil _ _, fun row hrow row' hrow' => ?_,
      fun row hrow => (h row hrow).symbols⟩
    rw [(h row hrow).length, (h row' hrow').length]

/-- A board with a row is determined by its rows. -/
theorem eq_of_rows_eq {b b' : Board} (hne : b.rows ≠ []) (h : b.rows = b'.rows) : b = b' := by
  have hheight : b.height = b'.height := by rw [← b.length_rows, h, b'.length_rows]
  have hwidth : b.width = b'.width := by
    obtain ⟨row, hrow⟩ := List.exists_mem_of_ne_nil _ hne
    rw [← b.length_of_mem_rows hrow, b'.length_of_mem_rows (h ▸ hrow)]
  refine ext_cell b b' hheight hwidth fun y x hy hx => ?_
  obtain ⟨row, -, hrow, hcells⟩ := b.getElem?_rows y hy
  obtain ⟨row', -, hrow', hcells'⟩ := b'.getElem?_rows y (hheight ▸ hy)
  rw [h, hrow', Option.some.injEq] at hrow
  subst hrow
  exact Option.some.inj ((hcells x hx).symm.trans (hcells' x (hwidth ▸ hx)))

theorem map_toList_linesOfText (text : String) :
    (linesOfText text).map String.toList = rowsOf text.toList := by
  simp [linesOfText, rowsOf, lines, List.filter_map, Function.comp_def]

theorem ofText_eq_empty {text : String} (h : rowsOf text.toList = []) :
    ofText text = .error .empty := by
  rw [ofText, ofLines, map_toList_linesOfText, h]

/-- The board that is made of regular rows. -/
def ofSymbols (width : ℕ) (rows : List (List Char)) : Board :=
  ofRows width (rows.map fun row => row.map fun c => if c = '1' then 1 else 0)

theorem ofText_eq_map {text : String} {first : List Char} {rest : List (List Char)}
    (h : rowsOf text.toList = first :: rest) :
    ofText text = (checkRows first.length 0 (first :: rest)).map fun _ =>
      ofSymbols first.length (first :: rest) := by
  rw [ofText, ofLines, map_toList_linesOfText, h]
  simp only
  cases checkRows first.length 0 (first :: rest) <;> rfl

theorem ofText_eq_error_iff {text : String} {first : List Char} {rest : List (List Char)}
    (h : rowsOf text.toList = first :: rest) (e : ParseError) :
    ofText text = .error e ↔ FirstFault first.length 0 (first :: rest) e := by
  rw [← checkRows_eq_error_iff, ofText_eq_map h]
  cases checkRows first.length 0 (first :: rest) <;> simp [Except.map]

theorem rows_ofSymbols {first : List Char} {rest : List (List Char)}
    (h : Regular (first :: rest)) :
    (ofSymbols first.length (first :: rest)).rows = digits (first :: rest) := by
  rw [digits_eq h.symbols]
  apply rows_ofRows
  intro row hrow
  obtain ⟨line, hline, rfl⟩ := List.mem_map.mp hrow
  rw [List.length_map, h.lengths line hline first List.mem_cons_self]

/-- A text is read as the board of its digits, if its rows are regular. -/
theorem ofText_eq_ok_iff (text : String) (b : Board) :
    ofText text = .ok b ↔ Regular (rowsOf text.toList) ∧ b.rows = digits (rowsOf text.toList) := by
  cases hrows : rowsOf text.toList with
  | nil =>
      rw [ofText_eq_empty hrows]
      exact iff_of_false (fun h => by cases h) fun h => h.1.ne_nil rfl
  | cons first rest =>
      rw [ofText_eq_map hrows]
      cases hcheck : checkRows first.length 0 (first :: rest) with
      | error e =>
          refine iff_of_false (fun h => by cases h) fun h => ?_
          have hfits := (checkRows_eq_ok_iff _ 0 _).mpr (regular_cons_iff.mp h.1)
          rw [hcheck] at hfits
          cases hfits
      | ok =>
          have hregular := regular_cons_iff.mpr ((checkRows_eq_ok_iff _ _ _).mp hcheck)
          have hdigits := rows_ofSymbols hregular
          constructor
          · intro h
            obtain rfl := Except.ok.inj h
            exact ⟨hregular, hdigits⟩
          · rintro ⟨-, hb⟩
            have hne : (ofSymbols first.length (first :: rest)).rows ≠ [] := by
              simp [hdigits, digits]
            exact congrArg Except.ok (eq_of_rows_eq hne (hdigits.trans hb.symm))

theorem exists_ofText_iff (text : String) :
    (∃ b, ofText text = .ok b) ↔ Regular (rowsOf text.toList) := by
  constructor
  · rintro ⟨b, h⟩
    exact ((ofText_eq_ok_iff text b).mp h).1
  · intro hregular
    obtain ⟨first, rest, hrows⟩ := List.exists_cons_of_ne_nil hregular.ne_nil
    refine ⟨ofSymbols first.length (first :: rest), (ofText_eq_ok_iff text _).mpr ?_⟩
    rw [hrows] at hregular ⊢
    exact ⟨hregular, rows_ofSymbols hregular⟩

/-- All texts of a board have the same rows. -/
theorem rowsOf_eq_of_ofText {text text' : String} {b : Board} (h : ofText text = .ok b)
    (h' : ofText text' = .ok b) : rowsOf text'.toList = rowsOf text.toList := by
  obtain ⟨hregular, hrows⟩ := (ofText_eq_ok_iff text b).mp h
  obtain ⟨hregular', hrows'⟩ := (ofText_eq_ok_iff text' b).mp h'
  exact digits_injective hregular'.symbols hregular.symbols (hrows'.symm.trans hrows)

/-- A board with cells has a layout, bordered or not, and a buffer in it. -/
theorem exists_encode {b : Board} (hheight : 0 < b.height) (hwidth : 0 < b.width)
    (bordered : Bool) :
    ∃ l buffer, LifeEngine.layoutOf (.board b) bordered = .ok l ∧
      l.encode (.board b) = .ok buffer := by
  let l : Layout := ⟨b.width, b.height, bordered, hwidth, hheight⟩
  refine ⟨l, _, ?_, (l.encode_board_eq_ok_iff b _).mpr ⟨rfl, rfl, rfl⟩⟩
  have hsize : Layout.ofSize b.width b.height bordered = .ok l := dif_pos ⟨hwidth, hheight⟩
  exact congrArg (Except.mapError LifeEngine.Error.layout) hsize

/-- A text loads exactly if it has rows, all of one length and of zeros and ones. The board then has
the digits of the rows, it has cells and can be written to a buffer, and the texts that load as this
board are those with the same rows, whatever blanks and line breaks stand around them. A text
without rows is empty, and any other text that does not load is refused with the first of its
faults. -/
theorem loads_exactly_regular_rows (text : String) :
    ∃ lines rows, Cut text.toList lines ∧ rows = (lines.map strip).filter (· ≠ []) ∧
      ((∃ b, ofText text = .ok b) ↔ Regular rows) ∧
      (∀ b, ofText text = .ok b →
        b.rows = digits rows ∧ 0 < b.height ∧ 0 < b.width ∧
          (∀ bordered, ∃ l buffer, LifeEngine.layoutOf (.board b) bordered = .ok l ∧
            l.encode (.board b) = .ok buffer) ∧
          ∀ text' : String, ofText text' = .ok b ↔ Spaced text'.toList rows) ∧
      (rows = [] → ofText text = .error .empty) ∧
      ∀ first rest, rows = first :: rest → ∀ e,
        ofText text = .error e ↔ FirstFault first.length 0 rows e := by
  obtain ⟨lines, hcut⟩ := exists_cut text.toList
  refine ⟨lines, rowsOf text.toList, hcut, rowsOf_eq_of_cut hcut, exists_ofText_iff text, ?_,
    ofText_eq_empty, ?_⟩
  · intro b hb
    obtain ⟨hregular, hdigits⟩ := (ofText_eq_ok_iff text b).mp hb
    obtain ⟨hheight, hwidth, -⟩ := ofText_spec hb
    refine ⟨hdigits, hheight, hwidth, exists_encode hheight hwidth, fun text' => ?_⟩
    rw [← rowsOf_eq_iff]
    refine ⟨rowsOf_eq_of_ofText hb, fun hrows => ?_⟩
    rw [ofText_eq_ok_iff, hrows]
    exact ⟨hregular, hdigits⟩
  · intro first rest hrows e
    rw [hrows]
    exact ofText_eq_error_iff hrows e

/-- Two texts of one board, and a text whose second row is too long and has unknown symbols. -/
theorem loads_exactly_regular_rows_spaced :
    Regular ["01".toList, "10".toList] ∧
      (∃ b, ofText "\n 01 \r\n\x0b10" = .ok b ∧ b.rows = [[0, 1], [1, 0]] ∧
        Spaced "01\u2028\u3000\n10\t".toList ["01".toList, "10".toList] ∧
        ofText "01\u2028\u3000\n10\t" = .ok b) ∧
      FirstFault 2 0 ["01".toList, "1xy".toList] (.rowLength 1 3 2) ∧
      ofText "01\n1xy\n" = .error (.rowLength 1 3 2) := by
  have hregular : Regular ["01".toList, "10".toList] := ⟨by decide, by decide, by simp⟩
  have hfault : FirstFault 2 0 ["01".toList, "1xy".toList] (.rowLength 1 3 2) :=
    ⟨["01".toList], "1xy".toList, [], rfl,
      List.forall_mem_singleton.mpr ⟨by decide, by simp⟩, .rowLength (by decide)⟩
  have hspaced : Spaced "01\u2028\u3000\n10\t".toList ["01".toList, "10".toList] :=
    (rowsOf_eq_iff _ _).mp (by decide)
  refine ⟨hregular, ?_, hfault, ?_⟩
  · obtain ⟨lines, rows, hcut, hrows, hloads, hboard, -, -⟩ :=
      loads_exactly_regular_rows "\n 01 \r\n\x0b10"
    obtain rfl : rows = ["01".toList, "10".toList] := by
      rw [hrows, ← rowsOf_eq_of_cut hcut]
      decide
    obtain ⟨b, hb⟩ := hloads.mpr hregular
    obtain ⟨hdigits, -, -, -, htexts⟩ := hboard b hb
    exact ⟨b, hb, hdigits, hspaced, (htexts _).mpr hspaced⟩
  · obtain ⟨lines, rows, hcut, hrows, -, -, -, hfaults⟩ := loads_exactly_regular_rows "01\n1xy\n"
    obtain rfl : rows = ["01".toList, "1xy".toList] := by
      rw [hrows, ← rowsOf_eq_of_cut hcut]
      decide
    exact (hfaults _ _ rfl _).mpr hfault

end Board

end SubstitutionAutomata
