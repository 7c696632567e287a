import SubstitutionAutomata.Life.Window
import SubstitutionAutomata.Proofs.Regex.Piece

/-! # Where the clause of a window matches

The clause of a window takes the centre of the window and nothing else, exactly where the buffer
shows the window in rows `s` apart. Its capture holds what the centre changes to. -/

namespace SubstitutionAutomata

open Regex

/-! ## Windows of a buffer -/

/-- Where the nine cells stand around position `p`, if rows are `s` apart. -/
def windowIndices (s p : ℕ) : List ℕ :=
  [p - s - 1, p - s, p - s + 1, p - 1, p, p + 1, p + s - 1, p + s, p + s + 1]

/-- The buffer shows the cells `cs` around position `p`. Between the rows of the window there is no
line feed. -/
structure WindowAt (cs : List Char) (s : ℕ) (b : List Char) (p : ℕ) : Prop where
  above : s + 1 ≤ p
  cells : (windowIndices s p).map (b[·]?) = cs.map some
  gaps : '\n' ∉ b.extract (p - s + 2) (p - 1) ∧ '\n' ∉ b.extract (p + 2) (p + s - 1)

/-- A dead cell follows the window, with no line feed between. -/
def DeadAhead (s : ℕ) (b : List Char) (p : ℕ) : Prop :=
  '0' ∈ (b.drop (p + s + 2)).takeWhile (· ≠ '\n')

namespace Neighborhood

/-! ## The items of a clause -/

/-- A cell of the window, inside the capture if it is the one to copy. -/
def piece (cells : Neighborhood) (name : String) (i : ℕ) : Piece :=
  ⟨(cells.getD i "").toList, if cells.source? = some i then some name else none⟩

theorem cellItems_eq (cells : Neighborhood) (name : String) (i : ℕ) :
    cells.cellItems name i = (cells.piece name i).items := by
  by_cases h : cells.source? = some i <;> simp [cellItems, piece, Piece.items, h]

def rowItems (cells : Neighborhood) (name : String) (indices : List ℕ) : List Regex :=
  (indices.map (cells.piece name)).flatMap Piece.items

theorem flatMap_cellItems (cells : Neighborhood) (name : String) (indices : List ℕ) :
    indices.flatMap (cells.cellItems name) = cells.rowItems name indices := by
  have h : cells.cellItems name = fun i => (cells.piece name i).items :=
    funext (cells.cellItems_eq name)
  rw [h, rowItems, List.flatMap_map]

/-- What the look-behind checks: the row above and the cell before the centre. -/
def beforeItems (cells : Neighborhood) (s : ℕ) (name : String) : List Regex :=
  cells.rowItems name [0, 1, 2] ++ gap s :: cells.rowItems name [3]

/-- What the look-ahead checks: the cell after the centre and the row below. -/
def afterItems (cells : Neighborhood) (s : ℕ) (name : String) : List Regex :=
  cells.rowItems name [5] ++ gap s :: (cells.rowItems name [6, 7, 8] ++ cells.scanItems name)

/-- The items of the clause. -/
def items (cells : Neighborhood) (s : ℕ) (name : String) : List Regex :=
  .behind ((concat (cells.beforeItems s name)).width.getD 0) (concat (cells.beforeItems s name)) ::
    (cells.rowItems name [4] ++ [.ahead (concat (cells.afterItems s name))])

theorem regex_eq (cells : Neighborhood) (s : ℕ) (name : String) :
    cells.regex s name = concat (cells.items s name) := by
  simp only [regex, flatMap_cellItems, items, beforeItems, afterItems, List.append_assoc,
    List.cons_append]

/-! ## Rows with a gap between them -/

variable (text : Array Char) (q : ℕ) (cs : Captures) (next : ℕ → Captures → Option Match)

/-- The text of two rows, with `n` characters of one line between them. -/
def RowsAt (first second : List Piece) (n : ℕ) : Prop :=
  first.flatMap Piece.text <+: text.toList.drop q ∧
    lineHolds text (q + (first.flatMap Piece.text).length) n = true ∧
    second.flatMap Piece.text <+:
      text.toList.drop (q + (first.flatMap Piece.text).length + n)

theorem run_gap (s : ℕ) :
    run text (gap s) q cs next =
      if lineHolds text q (s - 3) = true then next (q + (s - 3)) cs else none := by
  have hs : ((s : Int) - 3).toNat = s - 3 := by omega
  rw [gap, hs]
  rfl

instance (first second : List Piece) (n : ℕ) : Decidable (RowsAt text q first second n) :=
  inferInstanceAs (Decidable (_ ∧ _ ∧ _))

theorem run_rows (first second : List Piece) (rest : List Regex) (s : ℕ) :
    run text
        (concat (first.flatMap Piece.items ++ gap s :: (second.flatMap Piece.items ++ rest)))
        q cs next =
      if RowsAt text q first second (s - 3) then
        run text (concat rest)
          (q + (first.flatMap Piece.text).length + (s - 3) +
            (second.flatMap Piece.text).length)
          (Piece.spans (q + (first.flatMap Piece.text).length + (s - 3)) second ++
            (Piece.spans q first ++ cs)) next
      else none := by
  rw [Piece.run_flatMap_items]
  simp only [run_concat_cons, run_gap, Piece.run_flatMap_items]
  by_cases hfirst : first.flatMap Piece.text <+: text.toList.drop q
  · by_cases hline : lineHolds text (q + (first.flatMap Piece.text).length) (s - 3) = true
    · simp only [hfirst, hline, if_true, RowsAt, true_and]
    · simp only [hfirst, hline, if_true, RowsAt, true_and]
      simp
  · simp [hfirst, RowsAt]

/-! ## The cell to copy -/

variable (cells : Neighborhood) (name : String)

theorem source?_spec {cells : Neighborhood} {i : ℕ} (h : cells.source? = some i) :
    i < cells.length ∧ i ≠ center ∧ cells[i]? = some cells.target := by
  have hmem := List.mem_of_find?_eq_some h
  have hfound := List.find?_some h
  simp only [Bool.and_eq_true, decide_eq_true_eq] at hfound
  exact ⟨List.mem_range.mp hmem, hfound⟩

theorem name?_piece_eq_some {cells : Neighborhood} {name other : String} {i : ℕ}
    (h : (cells.piece name i).name? = some other) :
    other = name ∧ (cells.piece name i).text = cells.target.toList := by
  by_cases hs : cells.source? = some i
  · obtain rfl : name = other := by simpa [piece, hs] using h
    refine ⟨rfl, ?_⟩
    have hcell := (source?_spec hs).2.2
    rw [piece, List.getD_eq_getElem?_getD, hcell]
    rfl
  · simp [piece, hs] at h

/-- A list of captures of the clause's name alone, each of which spans what the centre changes to.
-/
def CapturesTarget (cs : Captures) : Prop :=
  ∀ other span, (other, span) ∈ cs →
    other = name ∧ (text.extract span.1 span.2).toList = cells.target.toList

theorem capturesTarget_spans (indices : List ℕ)
    (h : (indices.map (cells.piece name)).flatMap Piece.text <+: text.toList.drop q) :
    CapturesTarget text cells name (Piece.spans q (indices.map (cells.piece name))) := by
  intro other span hmem
  obtain ⟨piece, hpiece, hname, htext⟩ := Piece.mem_spans text q hmem h
  obtain ⟨i, -, rfl⟩ := List.mem_map.mp hpiece
  obtain ⟨rfl, htarget⟩ := name?_piece_eq_some hname
  exact ⟨rfl, htext.trans htarget⟩

theorem capturesTarget_append (first second : Captures) :
    CapturesTarget text cells name (first ++ second) ↔
      CapturesTarget text cells name first ∧ CapturesTarget text cells name second := by
  simp only [CapturesTarget, List.mem_append]
  grind

theorem exists_mem_spans_source (indices : List ℕ) {i : ℕ} (hi : i ∈ indices)
    (h : cells.source? = some i) :
    ∃ span, (name, span) ∈ Piece.spans q (indices.map (cells.piece name)) :=
  Piece.exists_mem_spans q (List.mem_map_of_mem hi) (by simp [piece, h])

/-! ## Matching a clause -/

/-- The centre row and the rows around it, with the look-behind at position `q`. -/
structure ClauseAt (n : ℕ) : Prop where
  before : RowsAt text q ([0, 1, 2].map (cells.piece name)) ([3].map (cells.piece name)) n
  centre : ([4].map (cells.piece name)).flatMap Piece.text <+: text.toList.drop (q + n + 4)
  after : RowsAt text (q + n + 5) ([5].map (cells.piece name)) ([6, 7, 8].map (cells.piece name)) n

theorem run_scanItems_of_isSome (h : cells.source?.isSome = true) :
    run text (concat (cells.scanItems name)) q cs next = next q cs := by
  simp [scanItems, h, concat, run]

theorem run_scanItems_of_isNone (h : cells.source? = none) :
    run text (concat (cells.scanItems name)) q cs (fun q cs => some ⟨q, cs⟩) =
      firstOnLine text (scanFor text '0' fun z => ⟨z + 1, (name, z, z + 1) :: cs⟩) q
        (text.size - q) := by
  have hscan : cells.scanItems name = [.lazyAny, .capture name (.literal ['0'])] := by
    simp [scanItems, h, dead]
  rw [hscan]
  simp only [concat, run, run_literal]
  congr 1
  funext z
  simp [scanFor, cons_prefix_drop_iff]

/-! ## Cells of one character -/

/-- The window whose cells are single characters. -/
def ofChars (chars : List Char) : Neighborhood := chars.map Char.toString

theorem text_piece (chars : List Char) (name : String) (i : ℕ) :
    ((ofChars chars).piece name i).text = chars[i]?.toList := by
  rw [piece, ofChars, List.getD_eq_getElem?_getD, List.getElem?_map]
  cases chars[i]? <;> simp [Char.toString]

theorem windowIndices_eq (q n : ℕ) :
    windowIndices (n + 3) (q + n + 4) =
      [q, q + 1, q + 1 + 1, q + 3 + n, q + n + 4, q + n + 5, q + n + 5 + 1 + n,
        q + n + 5 + 1 + n + 1, q + n + 5 + 1 + n + 1 + 1] := by
  simp only [windowIndices, List.cons.injEq, and_true]
  refine ⟨?_, ?_, ?_, ?_, trivial, trivial, ?_, ?_, ?_⟩
  all_goals omega

/-- The rows that the clause checks are those of the window. -/
theorem clauseAt_iff (chars : List Char) (h9 : chars.length = 9) (n : ℕ) :
    ClauseAt text q (ofChars chars) name n ↔
      WindowAt chars (n + 3) text.toList (q + n + 4) := by
  have hgap : text.toList.extract (q + n + 4 - (n + 3) + 2) (q + n + 4 - 1) =
      text.toList.extract (q + 3) (q + 3 + n) := by
    congr 1
    all_goals omega
  have hgap' : text.toList.extract (q + n + 4 + 2) (q + n + 4 + (n + 3) - 1) =
      text.toList.extract (q + n + 5 + 1) (q + n + 5 + 1 + n) := by
    congr 1
    omega
  match chars, h9 with
  | [c₀, c₁, c₂, c₃, c₄, c₅, c₆, c₇, c₈], _ =>
      constructor
      · rintro ⟨⟨h012, hline, h3⟩, h4, ⟨h5, hline', h678⟩⟩
        simp only [List.map_cons, List.map_nil, List.flatMap_cons, List.flatMap_nil, text_piece,
          List.getElem?_cons_zero, List.getElem?_cons_succ, Option.toList_some, List.append_nil,
          List.singleton_append, List.length_cons, List.length_nil, cons_prefix_drop_iff,
          Array.getElem?_toList, List.nil_prefix, and_true] at h012 hline h3 h4 h5 hline' h678
        refine ⟨by omega, ?_, ?_, ?_⟩
        · simp [windowIndices_eq, h012, h3, h4, h5, h678]
        · rw [hgap]
          exact (lineHolds_iff_of_getElem? text (q + 3) n h3).mp hline
        · rw [hgap']
          exact (lineHolds_iff_of_getElem? text _ n h678.1).mp hline'
      · rintro ⟨-, hcells, hline, hline'⟩
        simp only [windowIndices_eq, List.map_cons, List.map_nil, List.cons.injEq, and_true,
          Array.getElem?_toList] at hcells
        obtain ⟨h0, h1, h2, h3, h4, h5, h6, h7, h8⟩ := hcells
        rw [hgap] at hline
        rw [hgap'] at hline'
        have hl := (lineHolds_iff_of_getElem? text (q + 3) n h3).mpr hline
        have hl' := (lineHolds_iff_of_getElem? text _ n h6).mpr hline'
        refine ⟨⟨?_, ?_, ?_⟩, ?_, ⟨?_, ?_, ?_⟩⟩
        all_goals
          simp [text_piece, cons_prefix_drop_iff, h0, h1, h2, h3, h4, h5, h6, h7, h8, hl, hl']

theorem length_flatMap_text (chars : List Char) (h9 : chars.length = 9) (indices : List ℕ)
    (h : ∀ i ∈ indices, i < 9) :
    ((indices.map ((ofChars chars).piece name)).flatMap Piece.text).length = indices.length := by
  induction indices with
  | nil => rfl
  | cons i indices ih =>
      have hi : i < chars.length := h9 ▸ h i (by simp)
      rw [List.map_cons, List.flatMap_cons, List.length_append, text_piece,
        List.getElem?_eq_getElem hi, ih fun j hj => h j (List.mem_cons_of_mem i hj)]
      simp [Nat.add_comm]

theorem width_beforeItems (chars : List Char) (h9 : chars.length = 9) (n : ℕ) :
    (concat ((ofChars chars).beforeItems (n + 3) name)).width = some (n + 4) := by
  have hgap : (gap ((n + 3 : ℕ) : Int)).width = some n := by
    have hn : (((n + 3 : ℕ) : Int) - 3).toNat = n := by omega
    rw [gap, hn]
    rfl
  rw [beforeItems, width_concat_append, width_concat_cons, hgap, rowItems, rowItems,
    Piece.width_flatMap_items, Piece.width_flatMap_items,
    length_flatMap_text name chars h9 _ (by simp), length_flatMap_text name chars h9 _ (by simp)]
  simp
  omega

/-- The captures of the cells of a window whose first cell stands at `q`. -/
def clauseSpans (n : ℕ) : Captures :=
  Piece.spans (q + n + 5 + 1 + n) ([6, 7, 8].map (cells.piece name)) ++
    (Piece.spans (q + n + 5) ([5].map (cells.piece name)) ++
      (Piece.spans (q + n + 4) ([4].map (cells.piece name)) ++
        (Piece.spans (q + 3 + n) ([3].map (cells.piece name)) ++
          (Piece.spans q ([0, 1, 2].map (cells.piece name)) ++ []))))

theorem run_beforeItems (chars : List Char) (h9 : chars.length = 9) (n : ℕ) :
    run text (concat ((ofChars chars).beforeItems (n + 3) name)) q [] (fun z cs => some ⟨z, cs⟩) =
      if RowsAt text q ([0, 1, 2].map ((ofChars chars).piece name))
          ([3].map ((ofChars chars).piece name)) n then
        some ⟨q + 3 + n + 1, Piece.spans (q + 3 + n) ([3].map ((ofChars chars).piece name)) ++
          (Piece.spans q ([0, 1, 2].map ((ofChars chars).piece name)) ++ [])⟩
      else none := by
  have hrun := run_rows text q [] (fun z cs => some ⟨z, cs⟩)
    ([0, 1, 2].map ((ofChars chars).piece name)) ([3].map ((ofChars chars).piece name)) [] (n + 3)
  rw [length_flatMap_text name chars h9 _ (by simp), length_flatMap_text name chars h9 _ (by simp),
    List.append_nil] at hrun
  simp only [concat, run] at hrun
  exact hrun

theorem run_afterItems (chars : List Char) (h9 : chars.length = 9) (n : ℕ) :
    run text (concat ((ofChars chars).afterItems (n + 3) name)) q cs (fun z cs => some ⟨z, cs⟩) =
      if RowsAt text q ([5].map ((ofChars chars).piece name))
          ([6, 7, 8].map ((ofChars chars).piece name)) n then
        run text (concat ((ofChars chars).scanItems name)) (q + 1 + n + 3)
          (Piece.spans (q + 1 + n) ([6, 7, 8].map ((ofChars chars).piece name)) ++
            (Piece.spans q ([5].map ((ofChars chars).piece name)) ++ cs))
          fun z cs => some ⟨z, cs⟩
      else none := by
  have hrun := run_rows text q cs (fun z cs => some ⟨z, cs⟩)
    ([5].map ((ofChars chars).piece name)) ([6, 7, 8].map ((ofChars chars).piece name))
    ((ofChars chars).scanItems name) (n + 3)
  rw [length_flatMap_text name chars h9 _ (by simp), length_flatMap_text name chars h9 _ (by simp)]
    at hrun
  exact hrun

theorem matchAt_items_of_lt (chars : List Char) (h9 : chars.length = 9) (n p : ℕ)
    (hp : p < n + 4) : (concat ((ofChars chars).items (n + 3) name)).matchAt text p = none := by
  have hlt : ¬ n + 4 ≤ p := Nat.not_le_of_lt hp
  rw [matchAt, items, run_concat_cons, width_beforeItems name chars h9]
  simp only [run, Option.getD_some, hlt, if_false]

/-- The clause matches where its rows are, unless it has to scan for a dead cell in vain. -/
theorem matchAt_items (chars : List Char) (h9 : chars.length = 9) (n : ℕ)
    [Decidable (ClauseAt text q (ofChars chars) name n)] :
    (concat ((ofChars chars).items (n + 3) name)).matchAt text (q + n + 4) =
      if ClauseAt text q (ofChars chars) name n then
        (run text (concat ((ofChars chars).scanItems name)) (q + n + 5 + 1 + n + 3)
          (clauseSpans q (ofChars chars) name n) fun z cs => some ⟨z, cs⟩).map
            fun m => ⟨q + n + 5, m.captures⟩
      else none := by
  have hle : n + 4 ≤ q + n + 4 := by omega
  have hback : q + n + 4 - (n + 4) = q := by omega
  rw [matchAt, items, run_concat_cons, width_beforeItems name chars h9]
  simp only [run, Option.getD_some, hle, if_true, hback, run_beforeItems text q name chars h9]
  by_cases hbefore : RowsAt text q ([0, 1, 2].map ((ofChars chars).piece name))
      ([3].map ((ofChars chars).piece name)) n
  swap
  · have hnot : ¬ ClauseAt text q (ofChars chars) name n := fun h => hbefore h.before
    simp only [hbefore, hnot, if_false]
  simp only [hbefore, if_true, rowItems, Piece.run_flatMap_items,
    length_flatMap_text name chars h9 [4] (by simp)]
  by_cases hcentre : ([4].map ((ofChars chars).piece name)).flatMap Piece.text <+:
      text.toList.drop (q + n + 4)
  swap
  · have hnot : ¬ ClauseAt text q (ofChars chars) name n := fun h => hcentre h.centre
    simp only [hcentre, hnot, if_false]
  have hnext : q + n + 4 + 1 = q + n + 5 := rfl
  simp only [hcentre, if_true, concat, run, List.length_singleton, hnext,
    run_afterItems text (q + n + 5) _ name chars h9]
  by_cases hafter : RowsAt text (q + n + 5) ([5].map ((ofChars chars).piece name))
      ([6, 7, 8].map ((ofChars chars).piece name)) n
  swap
  · have hnot : ¬ ClauseAt text q (ofChars chars) name n := fun h => hafter h.after
    simp only [hafter, hnot, if_false]
  have hall : ClauseAt text q (ofChars chars) name n := ⟨hbefore, hcentre, hafter⟩
  simp only [hafter, hall, if_true]
  rw [clauseSpans]
  generalize run text _ _ _ _ = result
  cases result <;> rfl

theorem capturesTarget_clauseSpans {n : ℕ} (chars : List Char) (h9 : chars.length = 9)
    (h : ClauseAt text q (ofChars chars) name n) :
    CapturesTarget text (ofChars chars) name (clauseSpans q (ofChars chars) name n) := by
  have hthird := h.before.2.2
  have hsixth := h.after.2.2
  rw [length_flatMap_text name chars h9 _ (by simp)] at hthird hsixth
  simp only [clauseSpans, capturesTarget_append]
  refine ⟨?_, ?_, ?_, ?_, ?_, ?_⟩
  · exact capturesTarget_spans text _ _ name _ hsixth
  · exact capturesTarget_spans text _ _ name _ h.after.1
  · exact capturesTarget_spans text _ _ name _ h.centre
  · exact capturesTarget_spans text _ _ name _ hthird
  · exact capturesTarget_spans text _ _ name _ h.before.1
  · simp [CapturesTarget]

theorem exists_mem_clauseSpans (n : ℕ) (chars : List Char) (h9 : chars.length = 9) {i : ℕ}
    (h : (ofChars chars).source? = some i) :
    ∃ span, (name, span) ∈ clauseSpans q (ofChars chars) name n := by
  have hi : i < 9 := by
    have hlt := (source?_spec h).1
    rwa [ofChars, List.length_map, h9] at hlt
  have hrow : i ∈ [0, 1, 2] ∨ i ∈ [3] ∨ i ∈ [4] ∨ i ∈ [5] ∨ i ∈ [6, 7, 8] := by
    simp only [List.mem_cons, List.not_mem_nil, or_false]
    omega
  simp only [clauseSpans, List.mem_append]
  rcases hrow with hi | hi | hi | hi | hi
  · obtain ⟨span, hspan⟩ := exists_mem_spans_source q _ name _ hi h
    exact ⟨span, by simp only [hspan, true_or, or_true]⟩
  · obtain ⟨span, hspan⟩ := exists_mem_spans_source (q + 3 + n) _ name _ hi h
    exact ⟨span, by simp only [hspan, true_or, or_true]⟩
  · obtain ⟨span, hspan⟩ := exists_mem_spans_source (q + n + 4) _ name _ hi h
    exact ⟨span, by simp only [hspan, true_or, or_true]⟩
  · obtain ⟨span, hspan⟩ := exists_mem_spans_source (q + n + 5) _ name _ hi h
    exact ⟨span, by simp only [hspan, true_or, or_true]⟩
  · obtain ⟨span, hspan⟩ := exists_mem_spans_source (q + n + 5 + 1 + n) _ name _ hi h
    exact ⟨span, by simp only [hspan, true_or]⟩

/-! ## The window of a clause -/

/-- Where the clause of a window matches: at the window, with a dead cell ahead if the window has
no cell to copy. -/
def Matches (chars : List Char) (s : ℕ) (b : List Char) (p : ℕ) : Prop :=
  WindowAt chars s b p ∧ ((ofChars chars).source? = none → DeadAhead s b p)

/-- What a match of the clause must be: it takes the centre, and all that is captured is what the
centre changes to. -/
structure MatchesCentre (p : ℕ) (m : Match) : Prop where
  stop : m.stop = p + 1
  captures : CapturesTarget text cells name m.captures
  captured : ∃ span, (name, span) ∈ m.captures

variable {text cells name} in
theorem MatchesCentre.captured_eq {p : ℕ} {m : Match} (h : MatchesCentre text cells name p m) :
    m.captured text name = cells.target.toList := by
  apply m.captured_of_holds
  exact ⟨h.captured, fun span hspan => (h.captures name span hspan).2⟩

theorem matchAt_items_of_matches (chars : List Char) (h9 : chars.length = 9) (s p : ℕ)
    (hs : 3 ≤ s) (htarget : (ofChars chars).source? = none → (ofChars chars).target = dead)
    (h : Matches chars s text.toList p) :
    ∃ m, (concat ((ofChars chars).items s name)).matchAt text p = some m ∧
      MatchesCentre text (ofChars chars) name p m := by
  classical
  obtain ⟨n, rfl⟩ := Nat.exists_eq_add_of_le' hs
  obtain ⟨q, rfl⟩ := Nat.exists_eq_add_of_le' h.1.above
  have hclause := (clauseAt_iff text q name chars h9 n).mpr h.1
  have hspans := capturesTarget_clauseSpans text q name chars h9 hclause
  have hmatch := matchAt_items text q name chars h9 n
  rw [if_pos hclause] at hmatch
  cases hsource : (ofChars chars).source? with
  | some i =>
      rw [run_scanItems_of_isSome _ _ _ _ _ _ (by simp [hsource])] at hmatch
      exact ⟨_, hmatch, rfl, hspans, exists_mem_clauseSpans q name n chars h9 hsource⟩
  | none =>
      have hdead : '0' ∈ (text.toList.drop (q + n + 5 + 1 + n + 3)).takeWhile (· ≠ '\n') := by
        have hahead := h.2 hsource
        have hindex : q + (n + 3 + 1) + (n + 3) + 2 = q + n + 5 + 1 + n + 3 := by omega
        rwa [DeadAhead, hindex] at hahead
      obtain ⟨z, hz, hscan⟩ := firstOnLine_of_mem text _ '0'
        (fun z => ⟨z + 1, (name, z, z + 1) :: clauseSpans q (ofChars chars) name n⟩)
        (text.size - (q + n + 5 + 1 + n + 3)) (by omega) hdead
      rw [run_scanItems_of_isNone _ _ _ _ _ hsource, hscan] at hmatch
      refine ⟨_, hmatch, rfl, ?_, ⟨(z, z + 1), by simp⟩⟩
      intro other span hmem
      rcases List.mem_cons.mp hmem with heq | hmem
      · obtain ⟨rfl, rfl⟩ := Prod.mk.inj heq
        refine ⟨rfl, ?_⟩
        rw [htarget hsource]
        apply extract_of_prefix_drop ['0']
        simp [cons_prefix_drop_iff, hz]
      · exact hspans other span hmem

theorem matchAt_items_of_not_matches (chars : List Char) (h9 : chars.length = 9) (s p : ℕ)
    (hs : 3 ≤ s) (h : ¬ Matches chars s text.toList p) :
    (concat ((ofChars chars).items s name)).matchAt text p = none := by
  classical
  obtain ⟨n, rfl⟩ := Nat.exists_eq_add_of_le' hs
  by_cases habove : n + 4 ≤ p
  · obtain ⟨q, rfl⟩ := Nat.exists_eq_add_of_le' habove
    have hmatch := matchAt_items text q name chars h9 n
    by_cases hclause : ClauseAt text q (ofChars chars) name n
    · have hwindow := (clauseAt_iff text q name chars h9 n).mp hclause
      have hscan : ¬ ((ofChars chars).source? = none →
          DeadAhead (n + 3) text.toList (q + n + 4)) := fun hscan => h ⟨hwindow, hscan⟩
      obtain ⟨hsource, hdead⟩ := Classical.not_imp.mp hscan
      have hindex : q + n + 4 + (n + 3) + 2 = q + n + 5 + 1 + n + 3 := by omega
      rw [DeadAhead, hindex] at hdead
      rw [if_pos hclause, run_scanItems_of_isNone _ _ _ _ _ hsource,
        firstOnLine_of_not_mem _ _ _ _ _ (by decide) hdead] at hmatch
      exact hmatch
    · rw [if_neg hclause] at hmatch
      exact hmatch
  · exact matchAt_items_of_lt text name chars h9 n p (Nat.lt_of_not_le habove)

end Neighborhood

end SubstitutionAutomata
