import SubstitutionAutomata.Board.Layout
import SubstitutionAutomata.Life.Reference
import Mathlib.Data.List.Basic

/-! # Bordered buffers

A bordered buffer shows the board inside a margin of dead cells, each row followed by a separator.
Position `r * stride + c` holds row `r` and column `c` of that picture. -/

namespace SubstitutionAutomata

theorem getElem?_flatten_of_length {α : Type} (rows : List (List α)) (n r c : ℕ)
    (h : ∀ row ∈ rows, row.length = n) (hc : c < n) :
    rows.flatten[r * n + c]? = rows[r]?.bind (·[c]?) := by
  induction rows generalizing r with
  | nil => simp
  | cons row rows ih =>
      have hrow : row.length = n := h row (by simp)
      cases r with
      | zero =>
          rw [List.flatten_cons, Nat.zero_mul, Nat.zero_add, List.getElem?_append_left (by omega)]
          rfl
      | succ r =>
          have hindex : (r + 1) * n + c = row.length + (r * n + c) := by
            rw [hrow, Nat.succ_mul]
            omega
          rw [List.flatten_cons, hindex, List.getElem?_append_right (Nat.le_add_right ..),
            Nat.add_sub_cancel_left,
            ih r fun other hother => h other (List.mem_cons_of_mem _ hother)]
          rfl

namespace Board

variable (b : Board)

theorem cell_of_height_le (y x : ℕ) (h : b.height ≤ y) : b.cell y x = 0 := by
  simp [cell, Vector.getElem?_eq_none h]

theorem cell_of_width_le (y x : ℕ) (h : b.width ≤ x) : b.cell y x = 0 := by
  rw [cell]
  cases hrow : b.cells[y]? with
  | none => rfl
  | some row => simp [Vector.getElem?_eq_none h]

theorem padded_succ (y x : ℕ) : b.padded (y + 1) (x + 1) = b.cell y x := by simp [padded]

theorem padded_zero_left (x : ℕ) : b.padded 0 x = 0 := by simp [padded]

theorem padded_zero_right (y : ℕ) : b.padded y 0 = 0 := by simp [padded]

/-- The margin around the board is dead. -/
theorem padded_eq_zero (r c : ℕ)
    (h : ¬ (1 ≤ r ∧ r ≤ b.height ∧ 1 ≤ c ∧ c ≤ b.width)) : b.padded r c = 0 := by
  cases r with
  | zero => exact b.padded_zero_left c
  | succ y =>
      cases c with
      | zero => exact b.padded_zero_right _
      | succ x =>
          rw [padded_succ]
          by_cases hy : b.height ≤ y
          · exact b.cell_of_height_le y x hy
          · exact b.cell_of_width_le y x (by omega)

theorem padded_le_one (hcells : ∀ y x, b.cell y x ≤ 1) (r c : ℕ) : b.padded r c ≤ 1 := by
  cases r with
  | zero => simp [padded_zero_left]
  | succ y =>
      cases c with
      | zero => simp [padded_zero_right]
      | succ x =>
          rw [padded_succ]
          exact hcells y x

theorem length_rows : b.rows.length = b.height := by simp [rows]

theorem length_of_mem_rows {row : List ℕ} (h : row ∈ b.rows) : row.length = b.width := by
  obtain ⟨cells, -, rfl⟩ := List.mem_map.mp h
  exact cells.length_toList

theorem getElem?_rows (y : ℕ) (hy : y < b.height) :
    ∃ row ∈ b.rows, b.rows[y]? = some row ∧ ∀ x < b.width, row[x]? = some (b.cell y x) := by
  have hrow : b.rows[y]? = some b.cells[y].toList := by
    simp [rows, hy]
  refine ⟨b.cells[y].toList, List.mem_of_getElem? hrow, hrow, ?_⟩
  intro x hx
  simp [cell, hy, hx]

end Board

namespace Layout

variable (l : Layout) (b : Board)

/-- What a bordered buffer holds in a row and a column of the board with its margin. -/
def charAt (r c : ℕ) : Char := if c = l.width + 2 then separator else cellChar (b.padded r c)

theorem charAt_separator (r : ℕ) : l.charAt b r (l.width + 2) = separator := if_pos rfl

theorem charAt_of_ne {r c : ℕ} (h : c ≠ l.width + 2) :
    l.charAt b r c = cellChar (b.padded r c) := if_neg h

theorem charAt_ne_newline (r c : ℕ) : l.charAt b r c ≠ '\n' := by
  rw [charAt, cellChar]
  split
  · decide
  · split <;> decide

theorem stride_of_bordered (hb : l.bordered = true) : l.stride = l.width + 3 := by simp [stride, hb]

theorem bufferLength_of_bordered (hb : l.bordered = true) :
    l.bufferLength = (l.height + 2) * l.stride := by
  simp [bufferLength, hb]

theorem getElem?_borderRow (c : ℕ) (hc : c < l.width + 3) :
    l.borderRow[c]? = some (if c = l.width + 2 then separator else '0') := by
  by_cases h : c = l.width + 2
  · simp [borderRow, h]
  · have hlt : c < (List.replicate (l.width + 2) '0').length := by
      simp
      omega
    rw [if_neg h, borderRow, List.getElem?_append_left hlt]
    exact List.getElem?_replicate_of_lt (by omega)

theorem getElem?_encodeRow (hb : l.bordered = true) (row : List ℕ) (hrow : row.length = l.width)
    (c : ℕ) (hc : c < l.width + 3) :
    (l.encodeRow row)[c]? =
      some (if c = l.width + 2 then separator
        else cellChar (if 0 < c then row.getD (c - 1) 0 else 0)) := by
  rw [encodeRow, if_pos hb]
  cases c with
  | zero => simp [cellChar]
  | succ x =>
      by_cases hx : x < l.width
      · have hlt : x < (row.map cellChar).length := by simpa [hrow] using hx
        have hne : x + 1 ≠ l.width + 2 := by omega
        have hget : row[x]? = some row[x] := List.getElem?_eq_getElem (by omega)
        rw [List.cons_append, List.getElem?_cons_succ, List.getElem?_append_left hlt, if_neg hne,
          List.getElem?_map, hget]
        simp [hget]
      · have hle : (row.map cellChar).length ≤ x := by
          simp [hrow]
          omega
        rw [List.cons_append, List.getElem?_cons_succ, List.getElem?_append_right hle,
          List.length_map, hrow]
        rcases (by omega : x = l.width ∨ x = l.width + 1) with rfl | rfl
        · simp [cellChar, hrow]
        · simp

/-- The rows of a bordered buffer. -/
def borderedRows : List (List Char) := l.borderRow :: (b.rows.map l.encodeRow ++ [l.borderRow])

theorem encodeBoard_eq_flatten (hb : l.bordered = true) :
    l.encodeBoard b = (l.borderedRows b).flatten := by
  rw [encodeBoard, if_pos hb, borderedRows, List.flatten_cons, List.flatten_append,
    List.append_assoc, List.flatten_singleton, List.flatMap]

theorem length_of_mem_borderedRows (hb : l.bordered = true) (hwidth : b.width = l.width)
    {row : List Char} (h : row ∈ l.borderedRows b) :
    row.length = l.stride := by
  rw [stride_of_bordered l hb]
  have hborder : l.borderRow.length = l.width + 3 := by simp [borderRow]
  rcases List.mem_cons.mp h with rfl | h
  · exact hborder
  · rcases List.mem_append.mp h with h | h
    · obtain ⟨cells, hcells, rfl⟩ := List.mem_map.mp h
      have hlen := b.length_of_mem_rows hcells
      simp [encodeRow, hb, hlen, hwidth]
    · obtain rfl := List.mem_singleton.mp h
      exact hborder

theorem length_encodeBoard (hb : l.bordered = true) (hheight : b.height = l.height)
    (hwidth : b.width = l.width) : (l.encodeBoard b).length = (l.height + 2) * l.stride := by
  have hlengths : (l.borderedRows b).map List.length =
      List.replicate (l.height + 2) l.stride := by
    refine List.eq_replicate_iff.mpr ⟨by simp [borderedRows, b.length_rows, hheight], ?_⟩
    intro n hn
    obtain ⟨row, hrow, rfl⟩ := List.mem_map.mp hn
    exact length_of_mem_borderedRows l b hb hwidth hrow
  rw [encodeBoard_eq_flatten l b hb, List.length_flatten, hlengths, List.sum_replicate_nat]

/-- Every position of a bordered buffer, by row and column. -/
theorem getElem?_encodeBoard (hb : l.bordered = true) (hheight : b.height = l.height)
    (hwidth : b.width = l.width) (r c : ℕ) (hr : r < l.height + 2) (hc : c < l.stride) :
    (l.encodeBoard b)[r * l.stride + c]? = some (l.charAt b r c) := by
  rw [encodeBoard_eq_flatten l b hb,
    getElem?_flatten_of_length _ _ r c (fun _ h => length_of_mem_borderedRows l b hb hwidth h) hc]
  rw [stride_of_bordered l hb] at hc
  have hborder (hpadded : b.padded r c = 0) : l.borderRow[c]? = some (l.charAt b r c) := by
    rw [getElem?_borderRow l c hc, charAt, hpadded]
    rfl
  cases r with
  | zero => exact hborder (b.padded_zero_left c)
  | succ y =>
      rw [borderedRows, List.getElem?_cons_succ]
      by_cases hy : y < b.height
      · obtain ⟨row, hmem, hrow, hcells⟩ := b.getElem?_rows y hy
        have hlt : y < (b.rows.map l.encodeRow).length := by simpa [b.length_rows] using hy
        have hlen := (b.length_of_mem_rows hmem).trans hwidth
        rw [List.getElem?_append_left hlt, List.getElem?_map, hrow]
        simp only [Option.map_some, Option.bind_some]
        rw [getElem?_encodeRow l hb row hlen c hc, charAt]
        cases c with
        | zero => simp [b.padded_zero_right]
        | succ x =>
            rw [b.padded_succ]
            by_cases hx : x < b.width
            · simp [List.getD_eq_getElem?_getD, hcells x hx]
            · have hnone : row[x]? = none := List.getElem?_eq_none (by omega)
              simp [List.getD_eq_getElem?_getD, hnone, b.cell_of_width_le y x (by omega)]
      · have hlast : y = (b.rows.map l.encodeRow).length := by
          simp only [List.length_map, b.length_rows]
          omega
        have hpadded : b.padded (y + 1) c = 0 := b.padded_eq_zero _ _ (by omega)
        rw [List.getElem?_append_right (by omega), hlast, Nat.sub_self]
        rw [hlast] at hborder hpadded
        exact hborder hpadded

theorem newline_not_mem_encodeBoard (hb : l.bordered = true) (hheight : b.height = l.height)
    (hwidth : b.width = l.width) : '\n' ∉ l.encodeBoard b := by
  intro h
  obtain ⟨i, hi⟩ := List.mem_iff_getElem?.mp h
  have hlt : i < (l.height + 2) * l.stride := by
    have hlength := length_encodeBoard l b hb hheight hwidth
    have hbound := (List.getElem?_eq_some_iff.mp hi).1
    omega
  have hpos : 0 < l.stride := by
    rw [stride_of_bordered l hb]
    omega
  have hchar := getElem?_encodeBoard l b hb hheight hwidth (i / l.stride) (i % l.stride)
    (Nat.div_lt_of_lt_mul (by rwa [Nat.mul_comm] at hlt)) (Nat.mod_lt _ hpos)
  rw [Nat.div_add_mod', hi] at hchar
  exact charAt_ne_newline l b _ _ (Option.some.inj hchar).symm

end Layout

end SubstitutionAutomata
