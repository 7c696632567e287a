import SubstitutionAutomata.Proofs.Board.File
import SubstitutionAutomata.Proofs.Life.Border

/-! # Boards in buffers and back

A board of a layout's shape has a buffer of the layout's length, which reads back as the board with
all its live cells set to 1. Of all buffers the well-formed ones are written back as they were read.
-/

namespace SubstitutionAutomata

namespace Board

/-- The board with every live cell set to 1. -/
def binary (b : Board) : Board :=
  tabulate b.height b.width fun y x => if b.cell y x = 0 then 0 else 1

theorem binary_eq_self {b : Board} (hcells : ∀ y x, b.cell y x ≤ 1) : b.binary = b := by
  apply ext_cell
  · rfl
  · rfl
  · intro y x hy hx
    have hone := hcells y x
    rw [binary, cell_tabulate, if_pos ⟨hy, hx⟩]
    split <;> omega

/-- The characters of the cells, row by row. -/
def cellRows (b : Board) : List (List Char) := b.rows.map (List.map Layout.cellChar)

theorem length_cellRows (b : Board) : b.cellRows.length = b.height := by
  rw [cellRows, List.length_map, length_rows]

theorem length_of_mem_cellRows {b : Board} {row : List Char} (h : row ∈ b.cellRows) :
    row.length = b.width := by
  obtain ⟨cells, hcells, rfl⟩ := List.mem_map.mp h
  rw [List.length_map, b.length_of_mem_rows hcells]

theorem mem_cells_of_mem_cellRows {b : Board} {row : List Char} (h : row ∈ b.cellRows) :
    ∀ c ∈ row, c = '0' ∨ c = '1' := by
  obtain ⟨cells, -, rfl⟩ := List.mem_map.mp h
  intro c hc
  obtain ⟨n, -, rfl⟩ := List.mem_map.mp hc
  rw [Layout.cellChar]
  split <;> simp

end Board

namespace Layout

variable (l : Layout) (b : Board)

/-! ## The buffer of a board -/

def deadCells : List Char := List.replicate l.width '0'

/-- A row of a bordered buffer. -/
def framed (cells : List Char) : List Char := '0' :: cells ++ ['0', separator]

/-- What the buffers of a layout look like. A plain one holds as many cells as the board; a bordered
one holds framed rows, of which the first and the last are dead. -/
inductive WellFormed : List Char → Prop where
  | plain {buffer : List Char} (hb : l.bordered = false) (length : buffer.length = l.bufferLength)
      (cells : ∀ c ∈ buffer, c = '0' ∨ c = '1') : WellFormed buffer
  | bordered {rows : List (List Char)} (hb : l.bordered = true) (count : rows.length = l.height + 2)
      (width : ∀ row ∈ rows, row.length = l.width)
      (cells : ∀ row ∈ rows, ∀ c ∈ row, c = '0' ∨ c = '1')
      (first : rows.head? = some l.deadCells) (last : rows.getLast? = some l.deadCells) :
      WellFormed (rows.flatMap framed)

theorem framed_deadCells : framed l.deadCells = l.borderRow := by
  rw [framed, deadCells, borderRow, List.replicate_succ, List.replicate_succ']
  simp

theorem encodeBoard_of_bordered (hb : l.bordered = true) :
    l.encodeBoard b = (l.deadCells :: (b.cellRows ++ [l.deadCells])).flatMap framed := by
  have hrow : l.encodeRow = framed ∘ List.map cellChar := by
    funext row
    simp [encodeRow, hb, framed]
  simp [encodeBoard, hb, framed_deadCells, hrow, List.flatMap_def, Board.cellRows]

theorem encodeBoard_of_plain (hb : l.bordered = false) :
    l.encodeBoard b = b.cellRows.flatten := by
  have hrow : l.encodeRow = List.map cellChar := by
    funext row
    simp [encodeRow, hb]
  simp [encodeBoard, hb, hrow, List.flatMap_def, Board.cellRows]

theorem length_encodeBoard_eq (hheight : b.height = l.height) (hwidth : b.width = l.width) :
    (l.encodeBoard b).length = l.bufferLength := by
  cases hb : l.bordered with
  | true => rw [length_encodeBoard l b hb hheight hwidth, bufferLength_of_bordered l hb]
  | false =>
      have hlengths : b.cellRows.map List.length = List.replicate l.height l.width := by
        refine List.eq_replicate_iff.mpr ⟨by rw [List.length_map, b.length_cellRows, hheight], ?_⟩
        intro n hn
        obtain ⟨row, hrow, rfl⟩ := List.mem_map.mp hn
        rw [Board.length_of_mem_cellRows hrow, hwidth]
      rw [encodeBoard_of_plain l b hb, List.length_flatten, hlengths, List.sum_replicate_nat]
      simp [bufferLength, stride, hb]

theorem wellFormed_encodeBoard (hheight : b.height = l.height) (hwidth : b.width = l.width) :
    l.WellFormed (l.encodeBoard b) := by
  cases hb : l.bordered with
  | true =>
      have hmem : ∀ row ∈ l.deadCells :: (b.cellRows ++ [l.deadCells]),
          row = l.deadCells ∨ row ∈ b.cellRows := by
        intro row hrow
        simpa [or_comm, or_left_comm] using hrow
      rw [encodeBoard_of_bordered l b hb]
      refine .bordered hb (by simp [b.length_cellRows, hheight]) ?_ ?_ rfl
        (List.getLast?_concat (l := l.deadCells :: b.cellRows))
      · intro row hrow
        rcases hmem row hrow with rfl | hrow
        · rw [deadCells, List.length_replicate]
        · rw [Board.length_of_mem_cellRows hrow, hwidth]
      · intro row hrow
        rcases hmem row hrow with rfl | hrow
        · exact fun c hc => .inl (List.eq_of_mem_replicate hc)
        · exact Board.mem_cells_of_mem_cellRows hrow
  | false =>
      refine .plain hb (length_encodeBoard_eq l b hheight hwidth) ?_
      rw [encodeBoard_of_plain l b hb]
      intro c hc
      obtain ⟨row, hrow, hmem⟩ := List.mem_flatten.mp hc
      exact Board.mem_cells_of_mem_cellRows hrow c hmem

/-! ## The cells of a buffer -/

theorem index_of_bordered (hb : l.bordered = true) (y x : ℕ) :
    l.index y x = (y + 1) * l.stride + (x + 1) := if_pos hb

theorem getElem?_index (hheight : b.height = l.height) (hwidth : b.width = l.width) {y x : ℕ}
    (hy : y < l.height) (hx : x < l.width) :
    (l.encodeBoard b)[l.index y x]? = some (cellChar (b.cell y x)) := by
  cases hb : l.bordered with
  | true =>
      have hstride := stride_of_bordered l hb
      rw [index_of_bordered l hb,
        getElem?_encodeBoard l b hb hheight hwidth (y + 1) (x + 1) (by omega) (by omega),
        charAt_of_ne l b (by omega), b.padded_succ]
  | false =>
      obtain ⟨row, -, hrow, hcells⟩ := b.getElem?_rows y (by omega)
      have hindex : l.index y x = y * b.width + x := by simp [index, stride, hb, hwidth]
      rw [encodeBoard_of_plain l b hb, hindex, getElem?_flatten_of_length _ b.width y x
        (fun _ h => Board.length_of_mem_cellRows h) (by omega), Board.cellRows, List.getElem?_map,
        hrow]
      simp [hcells x (by omega)]

theorem cellChar_eq_one_iff_ne (n : ℕ) : cellChar n = '1' ↔ n ≠ 0 := by
  rw [cellChar]
  split <;> simp [*]

/-- A buffer reads back as the board, but for the size of its live cells. -/
theorem decode_encodeBoard_eq_binary (hheight : b.height = l.height) (hwidth : b.width = l.width) :
    l.decode (String.ofList (l.encodeBoard b)) = .ok b.binary := by
  have hsize : (l.encodeBoard b).toArray.size = l.bufferLength := by
    rw [List.size_toArray, length_encodeBoard_eq l b hheight hwidth]
  rw [decode, String.toList_ofList, if_pos hsize, Except.ok.injEq]
  apply Board.ext_cell
  · exact hheight.symm
  · exact hwidth.symm
  · intro y x hy hx
    have hplace : y < l.height ∧ x < l.width := ⟨hy, hx⟩
    have hplace' : y < b.height ∧ x < b.width := ⟨hheight ▸ hy, hwidth ▸ hx⟩
    rw [Board.binary, Board.cell_tabulate, Board.cell_tabulate, if_pos hplace, if_pos hplace',
      List.getElem?_toArray, getElem?_index l b hheight hwidth hy hx]
    simp only [Option.some.injEq, cellChar_eq_one_iff_ne, ite_not]

/-! ## Buffers that are written back -/

/-- Text of a whole number of rows consists of these rows. -/
theorem exists_flatten_of_length {α : Type} (n width : ℕ) (s : List α) (h : s.length = n * width) :
    ∃ rows : List (List α), rows.length = n ∧ (∀ row ∈ rows, row.length = width) ∧
      s = rows.flatten := by
  induction n generalizing s with
  | zero => exact ⟨[], rfl, by simp, by simpa using h⟩
  | succ n ih =>
      rw [Nat.succ_mul] at h
      obtain ⟨rows, hcount, hrows, hrest⟩ := ih (s.drop width) (by simp [h])
      refine ⟨s.take width :: rows, by simp [hcount], ?_, ?_⟩
      · intro row hrow
        rcases List.mem_cons.mp hrow with rfl | hrow
        · simp [h]
        · exact hrows row hrow
      · rw [List.flatten_cons, ← hrest, List.take_append_drop]

/-- Rows of cells are the rows of a board. -/
theorem exists_board_of_rows {rows : List (List Char)} (hcount : rows.length = l.height)
    (hwidth : ∀ row ∈ rows, row.length = l.width)
    (hcells : ∀ row ∈ rows, ∀ c ∈ row, c = '0' ∨ c = '1') :
    ∃ b : Board, b.height = l.height ∧ b.width = l.width ∧ (∀ y x, b.cell y x ≤ 1) ∧
      b.cellRows = rows := by
  let digits := rows.map fun row => row.map fun c => if c = '1' then 1 else 0
  have hdigits : ∀ row ∈ digits, row.length = l.width := by
    intro row hrow
    obtain ⟨cells, hmem, rfl⟩ := List.mem_map.mp hrow
    rw [List.length_map, hwidth cells hmem]
  have hwritten : ∀ row ∈ rows, (row.map fun c => if c = '1' then 1 else 0).map cellChar = row := by
    intro row hrow
    rw [List.map_map]
    refine (List.map_congr_left fun c hc => ?_).trans (List.map_id row)
    rcases hcells row hrow c hc with rfl | rfl <;> rfl
  refine ⟨.ofRows l.width digits, ?_, rfl, Board.cell_ofRows_le_one _ _, ?_⟩
  · exact (List.length_map _).trans hcount
  · rw [Board.cellRows, Board.rows_ofRows _ _ hdigits, List.map_map]
    exact List.map_congr_left hwritten |>.trans (List.map_id _)

/-- A well-formed buffer is the buffer of a board of cells that are 0 or 1. -/
theorem WellFormed.exists_encodeBoard {buffer : List Char} (h : l.WellFormed buffer) :
    ∃ b : Board, b.height = l.height ∧ b.width = l.width ∧ (∀ y x, b.cell y x ≤ 1) ∧
      l.encodeBoard b = buffer := by
  cases h with
  | plain hb length cells =>
      have hlength : buffer.length = l.height * l.width := by
        simpa [bufferLength, stride, hb] using length
      obtain ⟨rows, hcount, hwidth, rfl⟩ := exists_flatten_of_length _ _ _ hlength
      obtain ⟨b, hheight, hwidth, hone, hrows⟩ := l.exists_board_of_rows hcount hwidth
        fun row hrow c hc => cells c (List.mem_flatten_of_mem hrow hc)
      exact ⟨b, hheight, hwidth, hone, by rw [encodeBoard_of_plain l b hb, hrows]⟩
  | @bordered rows hb count width cells first last =>
      obtain ⟨tail, rfl⟩ := List.head?_eq_some_iff.mp first
      rcases List.eq_nil_or_concat tail with rfl | ⟨inner, final, rfl⟩
      · simp at count
      · rw [List.concat_eq_append, ← List.cons_append, List.getLast?_concat] at last
        obtain rfl := Option.some.inj last
        have hcount : inner.length = l.height := by simpa using count
        obtain ⟨b, hheight, hwidth, hone, hrows⟩ := l.exists_board_of_rows hcount
          (fun row hrow => width row (by simp [hrow])) fun row hrow => cells row (by simp [hrow])
        refine ⟨b, hheight, hwidth, hone, ?_⟩
        rw [encodeBoard_of_bordered l b hb, hrows, List.concat_eq_append]

/-! ## Round trips -/

theorem encode_board_eq_ok_iff (buffer : String) :
    l.encode (.board b) = .ok buffer ↔
      b.height = l.height ∧ b.width = l.width ∧ String.ofList (l.encodeBoard b) = buffer := by
  rw [encode]
  split <;> simp_all

theorem exists_decode {buffer : String} (h : buffer.length = l.bufferLength) :
    ∃ b, l.decode buffer = .ok b := by
  have hsize : buffer.toList.toArray.size = l.bufferLength := by
    rw [List.size_toArray, String.length_toList, h]
  exact ⟨_, if_pos hsize⟩

/-- A board of the layout's shape has a buffer, and the buffer reads back as the board with all live
cells set to 1. A buffer is written back as it was read exactly if it is well-formed. Reading fails
exactly on buffers of another length, and writing on cells of another shape. -/
theorem boards_round_trip (l : Layout) :
    (∀ b : Board, b.height = l.height → b.width = l.width →
      ∃ buffer, l.encode (.board b) = .ok buffer ∧ buffer.length = l.bufferLength ∧
        l.decode buffer = .ok b.binary) ∧
      (∀ buffer : String,
        (∃ b, l.decode buffer = .ok b ∧ l.encode (.board b) = .ok buffer) ↔
          l.WellFormed buffer.toList) ∧
      (∀ buffer : String,
        (∃ e, l.decode buffer = .error e) ↔ buffer.length ≠ l.bufferLength) ∧
      ∀ cells : CellArray, (∃ e, l.encode cells = .error e) ↔
        ¬ ∃ b, cells = .board b ∧ b.height = l.height ∧ b.width = l.width := by
  refine ⟨fun b hheight hwidth => ?_, fun buffer => ⟨?_, fun h => ?_⟩, fun buffer => ?_,
    fun cells => ?_⟩
  · refine ⟨_, (l.encode_board_eq_ok_iff b _).mpr ⟨hheight, hwidth, rfl⟩, ?_,
      l.decode_encodeBoard_eq_binary b hheight hwidth⟩
    rw [String.length_ofList, l.length_encodeBoard_eq b hheight hwidth]
  · rintro ⟨b, -, hencode⟩
    obtain ⟨hheight, hwidth, rfl⟩ := (l.encode_board_eq_ok_iff b buffer).mp hencode
    rw [String.toList_ofList]
    exact l.wellFormed_encodeBoard b hheight hwidth
  · obtain ⟨b, hheight, hwidth, hone, hbuffer⟩ := h.exists_encodeBoard
    have hdecode := l.decode_encodeBoard_eq_binary b hheight hwidth
    rw [Board.binary_eq_self hone, hbuffer, String.ofList_toList] at hdecode
    exact ⟨b, hdecode, (l.encode_board_eq_ok_iff b buffer).mpr ⟨hheight, hwidth, by
      rw [hbuffer, String.ofList_toList]⟩⟩
  · rw [decode, List.size_toArray, String.length_toList]
    split <;> simp [*]
  · cases cells with
    | row cells => simp [encode]
    | board b =>
        rw [encode]
        split <;> simp_all

/-- A bordered row with a cell of 7 reads back with a cell of 1. -/
theorem boards_round_trip_single_row :
    ∃ l : Layout, ∃ b : Board, l.bordered = true ∧ b.height = l.height ∧ b.width = l.width ∧
      b.rows = [[0, 7]] ∧ b.binary.rows = [[0, 1]] ∧
      l.encode (.board b) = .ok "0000|0010|0000|" ∧
      l.decode "0000|0010|0000|" = .ok b.binary := by
  let l : Layout := ⟨2, 1, true, by decide, by decide⟩
  let b : Board := .ofRows 2 [[0, 7]]
  have hencode : l.encode (.board b) = .ok "0000|0010|0000|" := by decide
  obtain ⟨buffer, hbuffer, -, hdecode⟩ := (boards_round_trip l).1 b rfl rfl
  obtain rfl := Except.ok.inj (hencode.symm.trans hbuffer)
  exact ⟨l, b, rfl, rfl, rfl, by decide, by decide, hencode, hdecode⟩

end Layout

end SubstitutionAutomata
