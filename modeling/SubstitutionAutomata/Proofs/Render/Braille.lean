import SubstitutionAutomata.Proofs.Board.File
import SubstitutionAutomata.Proofs.Life.Border
import SubstitutionAutomata.Render.Glyph
import Mathlib.Algebra.Order.Floor.Div
import Mathlib.Data.Nat.Bitwise
import Mathlib.GroupTheory.GroupAction.Ring
import Mathlib.Tactic.IntervalCases

/-! # Boards in braille

Each of the eight dots of a braille character has a weight of its own, so that the character tells
which of the cells it stands for are live. The lines of a board have a dot for every live cell and
no other dot, and boards of one shape with the same lines are equal. -/

namespace SubstitutionAutomata.Board

/-! ## Dots of a character -/

def dotWeight (i j : ℕ) : ℕ := (dotWeights.getD i []).getD j 0

/-- Whether a character has the dot in a row and a column of its block. -/
def HasDot (c : Char) (i j : ℕ) : Prop := c.toNat &&& dotWeight i j ≠ 0

/-- The place of a dot's bit: three dots from the top on the left, three on the right, and then the
two of the last row. -/
def dotBit (i j : ℕ) : ℕ := if i = 3 then 6 + j else i + 3 * j

theorem dotWeight_eq : ∀ i < 4, ∀ j < 2, dotWeight i j = 2 ^ dotBit i j := by decide

theorem hasDot_iff (c : Char) {i j : ℕ} (hi : i < 4) (hj : j < 2) :
    HasDot c i j ↔ c.toNat / 2 ^ dotBit i j % 2 = 1 := by
  rw [HasDot, dotWeight_eq i hi j hj, Nat.and_two_pow, Nat.testBit_eq_decide_div_mod_eq]
  by_cases h : c.toNat / 2 ^ dotBit i j % 2 = 1 <;> simp [h]

/-- The dots of a block of cells. -/
def packed (f : ℕ → ℕ → ℕ) : ℕ :=
  f 0 0 + 8 * f 0 1 + (2 * f 1 0 + 16 * f 1 1 +
    (4 * f 2 0 + 32 * f 2 1 + (64 * f 3 0 + 128 * f 3 1)))

theorem dots_eq_packed (b : Board) (y x : ℕ) :
    b.dots y x = packed fun i j => b.cell (y + i) (x + j) := by
  simp [dots, dotWeights, addUp, List.mapIdx_cons, packed]

/-- Each cell of a block can be told from its dots. -/
theorem packed_spec {f : ℕ → ℕ → ℕ} (hf : ∀ i j, f i j ≤ 1) :
    packed f < 256 ∧ ∀ i < 4, ∀ j < 2, (brailleBase + packed f) / 2 ^ dotBit i j % 2 = f i j := by
  have h00 := hf 0 0
  have h01 := hf 0 1
  have h10 := hf 1 0
  have h11 := hf 1 1
  have h20 := hf 2 0
  have h21 := hf 2 1
  have h30 := hf 3 0
  have h31 := hf 3 1
  refine ⟨by rw [packed]; omega, fun i hi j hj => ?_⟩
  interval_cases i <;> interval_cases j <;> simp [dotBit, brailleBase, packed] <;> omega

/-- The character of the block whose first cell is in a row and a column. -/
def brailleChar (b : Board) (y x : ℕ) : Char := Char.ofNat (brailleBase + b.dots y x)

section Cells

variable {b : Board}

theorem toNat_brailleChar (hcells : ∀ y x, b.cell y x ≤ 1) (y x : ℕ) :
    (b.brailleChar y x).toNat = brailleBase + packed fun i j => b.cell (y + i) (x + j) := by
  have hlt := (packed_spec fun i j => hcells (y + i) (x + j)).1
  have hvalid : (brailleBase + packed fun i j => b.cell (y + i) (x + j)).isValidChar := by
    have hbase : brailleBase = 0x2800 := rfl
    exact .inl (by omega)
  rw [brailleChar, dots_eq_packed, Char.ofNat, dif_pos hvalid]
  rfl

theorem brailleChar_bounds (hcells : ∀ y x, b.cell y x ≤ 1) (y x : ℕ) :
    0x2800 ≤ (b.brailleChar y x).toNat ∧ (b.brailleChar y x).toNat ≤ 0x28ff := by
  have hlt := (packed_spec fun i j => hcells (y + i) (x + j)).1
  have hbase : brailleBase = 0x2800 := rfl
  rw [toNat_brailleChar hcells]
  omega

/-- The dots of a character are the live ones of its cells. -/
theorem hasDot_brailleChar_iff (hcells : ∀ y x, b.cell y x ≤ 1) (y x : ℕ) {i j : ℕ} (hi : i < 4)
    (hj : j < 2) :
    HasDot (b.brailleChar y x) i j ↔ b.cell (y + i) (x + j) = 1 := by
  rw [hasDot_iff _ hi hj, toNat_brailleChar hcells,
    (packed_spec fun i j => hcells (y + i) (x + j)).2 i hi j hj]

end Cells

/-! ## Dots of the lines -/

/-- Whether lines have a dot in a row and a column of cells. -/
def DotAt (lines : List String) (y x : ℕ) : Prop :=
  ∃ line c, lines[y / 4]? = some line ∧ line.toList[x / 2]? = some c ∧ HasDot c (y % 4) (x % 2)

variable (b : Board)

theorem length_brailleLines : b.brailleLines.length = b.height ⌈/⌉ 4 := by
  rw [brailleLines, List.length_map, List.length_range, Nat.ceilDiv_eq_add_pred_div]
  rfl

/-- The line of four rows of cells. -/
def brailleLine (i : ℕ) : List Char :=
  (List.range ((b.width + 1) / 2)).map fun j => b.brailleChar (4 * i) (2 * j)

theorem brailleLines_eq :
    b.brailleLines =
      (List.range ((b.height + 3) / 4)).map fun i => String.ofList (b.brailleLine i) :=
  rfl

theorem length_brailleLine (i : ℕ) : (b.brailleLine i).length = b.width ⌈/⌉ 2 := by
  rw [brailleLine, List.length_map, List.length_range, Nat.ceilDiv_eq_add_pred_div]
  rfl

theorem getElem?_brailleLines (i : ℕ) :
    b.brailleLines[i]? = if i < (b.height + 3) / 4 then some (String.ofList (b.brailleLine i))
      else none := by
  rw [brailleLines_eq, List.getElem?_map]
  split <;> simp [*]

theorem getElem?_brailleLine (i j : ℕ) :
    (b.brailleLine i)[j]? = if j < (b.width + 1) / 2 then some (b.brailleChar (4 * i) (2 * j))
      else none := by
  rw [brailleLine, List.getElem?_map]
  split <;> simp [*]

variable {b} in
/-- The lines have a dot exactly for every live cell. -/
theorem dotAt_brailleLines_iff (hcells : ∀ y x, b.cell y x ≤ 1) (y x : ℕ) :
    DotAt b.brailleLines y x ↔ y < b.height ∧ x < b.width ∧ b.cell y x = 1 := by
  have hdot := hasDot_brailleChar_iff hcells (4 * (y / 4)) (2 * (x / 2))
    (Nat.mod_lt y (by decide : 4 > 0)) (Nat.mod_lt x (by decide : 2 > 0))
  rw [Nat.div_add_mod, Nat.div_add_mod] at hdot
  constructor
  · rintro ⟨line, c, hline, hc, hhas⟩
    rw [getElem?_brailleLines] at hline
    split at hline
    · obtain rfl := Option.some.inj hline
      rw [String.toList_ofList, getElem?_brailleLine] at hc
      split at hc
      · obtain rfl := Option.some.inj hc
        have hlive := hdot.mp hhas
        refine ⟨?_, ?_, hlive⟩
        · by_contra hy
          simp [b.cell_of_height_le y x (by omega)] at hlive
        · by_contra hx
          simp [b.cell_of_width_le y x (by omega)] at hlive
      · cases hc
    · cases hline
  · rintro ⟨hy, hx, hlive⟩
    refine ⟨.ofList (b.brailleLine (y / 4)), _, ?_, ?_, hdot.mpr hlive⟩
    · rw [getElem?_brailleLines, if_pos (by omega)]
    · rw [String.toList_ofList, getElem?_brailleLine, if_pos (by omega)]

variable {b} in
/-- Boards of one shape have the same lines only if they are equal. -/
theorem eq_of_brailleLines_eq (hcells : ∀ y x, b.cell y x ≤ 1) {b' : Board}
    (hcells' : ∀ y x, b'.cell y x ≤ 1) (hheight : b'.height = b.height)
    (hwidth : b'.width = b.width) (h : b'.brailleLines = b.brailleLines) : b' = b := by
  refine ext_cell b' b hheight hwidth fun y x hy hx => ?_
  have hdot := dotAt_brailleLines_iff hcells y x
  rw [← h, dotAt_brailleLines_iff hcells' y x] at hdot
  have hlive : b'.cell y x = 1 ↔ b.cell y x = 1 := by
    simpa [hy, hx, hheight ▸ hy, hwidth ▸ hx] using hdot
  have hone := hcells y x
  have hone' := hcells' y x
  omega

variable {b} in
/-- The braille lines of a board of zeros and ones are as many and as long as its blocks, of braille
characters, and have a dot exactly for every live cell, so that no position outside the board has
one. Boards of one shape with the same lines are equal. -/
theorem brailleLines_show_cells (hcells : ∀ y x, b.cell y x ≤ 1) :
    b.brailleLines.length = b.height ⌈/⌉ 4 ∧
      (∀ line ∈ b.brailleLines, line.length = b.width ⌈/⌉ 2 ∧
        ∀ c ∈ line.toList, 0x2800 ≤ c.toNat ∧ c.toNat ≤ 0x28ff) ∧
      (∀ y x, DotAt b.brailleLines y x ↔ y < b.height ∧ x < b.width ∧ b.cell y x = 1) ∧
      ∀ b' : Board, (∀ y x, b'.cell y x ≤ 1) → b'.height = b.height → b'.width = b.width →
        b'.brailleLines = b.brailleLines → b' = b := by
  refine ⟨b.length_brailleLines, fun line hline => ?_, dotAt_brailleLines_iff hcells,
    fun b' hcells' hheight hwidth h => eq_of_brailleLines_eq hcells hcells' hheight hwidth h⟩
  obtain ⟨i, -, rfl⟩ := List.mem_map.mp hline
  refine ⟨(String.length_ofList).trans (b.length_brailleLine i), fun c hc => ?_⟩
  rw [String.toList_ofList] at hc
  obtain ⟨j, -, rfl⟩ := List.mem_map.mp hc
  exact brailleChar_bounds hcells _ _

/-- Two rows of three cells fill the upper left part of two characters. -/
theorem brailleLines_show_cells_three_wide :
    ∃ b b' : Board, b.rows = [[1, 0, 1], [0, 1, 0]] ∧ b'.rows = [[1, 0, 1], [0, 1, 1]] ∧
      (∀ y x, b.cell y x ≤ 1) ∧ (∀ y x, b'.cell y x ≤ 1) ∧ b.brailleLines = ["⠑⠁"] ∧
      DotAt ["⠑⠁"] 1 1 ∧ ¬ DotAt ["⠑⠁"] 1 2 ∧ ¬ DotAt ["⠑⠁"] 3 3 ∧ b'.brailleLines ≠ ["⠑⠁"] := by
  let symbols (row : List Char) := row.map fun c => if c = '1' then 1 else 0
  let b := ofRows 3 (["101".toList, "010".toList].map symbols)
  let b' := ofRows 3 (["101".toList, "011".toList].map symbols)
  have hcells : ∀ y x, b.cell y x ≤ 1 := cell_ofRows_le_one 3 _
  have hcells' : ∀ y x, b'.cell y x ≤ 1 := cell_ofRows_le_one 3 _
  have hlines : b.brailleLines = ["⠑⠁"] := by decide
  obtain ⟨-, -, hdots, hdetermined⟩ := brailleLines_show_cells hcells
  rw [hlines] at hdots hdetermined
  refine ⟨b, b', by decide, by decide, hcells, hcells', hlines, (hdots 1 1).mpr (by decide),
    mt (hdots 1 2).mp (by decide), mt (hdots 3 3).mp (by decide), fun h => ?_⟩
  have heq := congrArg Board.rows (hdetermined b' hcells' rfl rfl h)
  exact absurd heq (by decide)

end SubstitutionAutomata.Board
