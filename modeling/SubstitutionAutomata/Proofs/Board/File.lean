import SubstitutionAutomata.Board.File
import Mathlib.Data.Nat.Notation

/-! # Boards from text

A board that was read has cells, and each of them is 0 or 1. -/

namespace SubstitutionAutomata.Board

open Text

theorem eraseReps_ne_nil {α : Type} [BEq α] (a : α) (l : List α) : (a :: l).eraseReps ≠ [] := by
  have hloop : ∀ (l : List α) (a : α) (seen : List α),
      List.eraseRepsBy.loop (· == ·) a l seen ≠ [] := by
    intro l
    induction l with
    | nil => simp [List.eraseRepsBy.loop]
    | cons b l ih =>
        intro a seen
        rw [List.eraseRepsBy.loop]
        split
        · exact ih a seen
        · exact ih b _
  exact hloop l a []

/-- No symbol is reported exactly if all are known. -/
theorem unknownSymbols_eq_nil_iff (known : Char → Bool) (s : List Char) :
    unknownSymbols known s = [] ↔ ∀ c ∈ s, known c = true := by
  have hperm := List.mergeSort_perm (s.filter fun c => !known c) fun a b => a.toNat ≤ b.toNat
  have hfilter : (∀ c ∈ s, known c = true) ↔ (s.filter fun c => !known c) = [] := by
    simp [List.filter_eq_nil_iff]
  rw [hfilter, unknownSymbols]
  constructor
  · intro h
    cases hsorted : (s.filter fun c => !known c).mergeSort fun a b => a.toNat ≤ b.toNat with
    | nil =>
        rw [hsorted] at hperm
        exact hperm.symm.eq_nil
    | cons a l =>
        rw [hsorted] at h
        exact absurd h (eraseReps_ne_nil a l)
  · intro h
    rw [h, List.mergeSort_nil]
    rfl

theorem ne_empty_of_mem_linesOfText {text line : String} (h : line ∈ linesOfText text) :
    line.toList ≠ [] := by
  obtain ⟨s, hs, rfl⟩ := List.mem_map.mp h
  simpa using (List.mem_filter.mp hs).2

/-- Characters of cells give a board of cells that are 0 or 1. -/
theorem cell_ofRows_le_one (width : ℕ) (rows : List (List Char)) (y x : ℕ) :
    (ofRows width (rows.map fun row => row.map fun c => if c = '1' then 1 else 0)).cell y x ≤
      1 := by
  rw [ofRows, cell_tabulate]
  split
  · rw [List.getD_eq_getElem?_getD, List.getD_eq_getElem?_getD, List.getElem?_map]
    cases rows[y]? with
    | none => simp
    | some row =>
        simp only [Option.map_some, Option.getD_some, List.getElem?_map]
        cases row[x]? with
        | none => simp
        | some c =>
            simp only [Option.map_some, Option.getD_some]
            split <;> omega
  · omega

theorem rows_ofRows (width : ℕ) (rows : List (List ℕ)) (h : ∀ row ∈ rows, row.length = width) :
    (ofRows width rows).rows = rows := by
  apply List.ext_getElem
  · simp [Board.rows, ofRows, tabulate]
  · intro y hy hy'
    have hrow := h _ (List.getElem_mem hy')
    apply List.ext_getElem
    · simp [Board.rows, ofRows, tabulate, hrow]
    · intro x hx hx'
      simp [Board.rows, ofRows, tabulate, hx']

/-- A board that was read is not empty, and its cells are 0 or 1. -/
theorem ofText_spec {text : String} {b : Board} (h : ofText text = .ok b) :
    0 < b.height ∧ 0 < b.width ∧ ∀ y x, b.cell y x ≤ 1 := by
  rw [ofText, ofLines] at h
  split at h
  · cases h
  · rename_i first rest hlines
    split at h
    · cases h
    · obtain rfl := Except.ok.inj h
      obtain ⟨line, hline, rfl⟩ : ∃ line ∈ linesOfText text, line.toList = first :=
        List.mem_map.mp (hlines ▸ List.mem_cons_self)
      refine ⟨?_, List.length_pos_iff.mpr (ne_empty_of_mem_linesOfText hline), ?_⟩
      · simp [ofRows, tabulate]
      · exact cell_ofRows_le_one _ _

end SubstitutionAutomata.Board
