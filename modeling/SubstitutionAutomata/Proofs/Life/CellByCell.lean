import SubstitutionAutomata.Life.CellByCell
import SubstitutionAutomata.Proofs.Life.Generation
import Mathlib.Algebra.BigOperators.Group.List.Basic
import Mathlib.Algebra.GroupWithZero.Nat
import Mathlib.Logic.Function.Iterate

/-! # Generations cell by cell

On boards of cells that are 0 or 1 a generation computed cell by cell is a generation of the
reference automaton. -/

namespace SubstitutionAutomata

theorem addUp_eq_sum (ns : List ℕ) : addUp ns = ns.sum := rfl

/-- Numbers that are 0 or 1 add up to the count of those that are not 0. -/
theorem addUp_eq_countP {ns : List ℕ} (h : ∀ n ∈ ns, n ≤ 1) :
    addUp ns = ns.countP (· ≠ 0) := by
  induction ns with
  | nil => rfl
  | cons n ns ih =>
      have hn := h n List.mem_cons_self
      rw [addUp_cons, List.countP_cons, ih fun m hm => h m (List.mem_cons_of_mem n hm)]
      by_cases hzero : n = 0
      · simp [hzero]
      · simp [show n = 1 by omega, Nat.add_comm]

namespace Board

/-! ## Neighbours -/

/-- The places around a cell, counted from the margin. -/
theorem placesAround_eq (y x : ℕ) :
    placesAround y x =
      ((windowPlaces y x).eraseIdx 4).map fun place => ((place.1 : ℤ) - 1, (place.2 : ℤ) - 1) := by
  have hbefore : ∀ n : ℕ, ¬ (n : ℤ) + -1 = n := by omega
  have hafter : ∀ n : ℕ, ¬ (n : ℤ) + 1 = n := by omega
  have hlast : ∀ n : ℕ, (n : ℤ) + 2 + -1 = n + 1 := by omega
  simp [placesAround, offsets, windowPlaces, hbefore, hafter, hlast, Int.sub_eq_add_neg]

/-- A place off the board counts like the margin. -/
theorem cell_of_contains (b : Board) (r c : ℕ) :
    (if b.contains ((r : ℤ) - 1, (c : ℤ) - 1) then
      b.cell ((r : ℤ) - 1).toNat ((c : ℤ) - 1).toNat else 0) = b.padded r c := by
  by_cases h : 1 ≤ r ∧ r ≤ b.height ∧ 1 ≤ c ∧ c ≤ b.width
  · obtain ⟨y, rfl⟩ := Nat.exists_eq_add_of_le' h.1
    obtain ⟨x, rfl⟩ := Nat.exists_eq_add_of_le' h.2.2.1
    have hcontains : b.contains (((y + 1 : ℕ) : ℤ) - 1, ((x + 1 : ℕ) : ℤ) - 1) = true := by
      simp [contains]
      omega
    rw [if_pos hcontains, padded_succ]
    simp
  · have hcontains : ¬ b.contains ((r : ℤ) - 1, (c : ℤ) - 1) = true := by
      simp [contains]
      omega
    rw [if_neg hcontains, b.padded_eq_zero r c h]

theorem sumAround_eq_neighborSum (b : Board) (y x : ℕ) : b.sumAround y x = b.neighborSum y x := by
  have hfilter : (((placesAround y x).filter b.contains).map fun place =>
        b.cell place.1.toNat place.2.toNat).sum =
      ((placesAround y x).map fun place =>
        if b.contains place then b.cell place.1.toNat place.2.toNat else 0).sum := by
    rw [List.sum_map_ite]
    simp
  rw [sumAround, addUp_eq_sum, hfilter, placesAround_eq, List.map_map, neighborSum_eq,
    addUp_eq_sum]
  congr 1
  apply List.map_congr_left
  intro place _
  exact b.cell_of_contains place.1 place.2

/-! ## Generations -/

theorem next_eq_convolved {b : Board} (rule : Rule) (hcells : ∀ y x, b.cell y x ≤ 1) :
    b.next rule = b.convolved rule := by
  refine ext_cell (b.next rule) (b.convolved rule) rfl rfl ?_
  intro y x hy hx
  have hone := hcells y x
  rw [b.cell_convolved rule hcells hy hx, next, cell_tabulate, if_pos ⟨hy, hx⟩,
    sumAround_eq_neighborSum]
  rcases (by omega : b.cell y x = 0 ∨ b.cell y x = 1) with hcell | hcell
  · cases h : rule.changes false (b.neighborSum y x) <;> simp [hcell, h]
  · cases h : rule.changes true (b.neighborSum y x) <;> simp [hcell, h]

/-- The board after so many generations. -/
def generation (b : Board) (rule : Rule) (n : ℕ) : Board := (fun b => b.next rule)^[n] b

theorem generation_succ (b : Board) (rule : Rule) (n : ℕ) :
    b.generation rule (n + 1) = (b.generation rule n).next rule :=
  Function.iterate_succ_apply' _ _ _

/-- The number of cells that are not dead. -/
def population (b : Board) : ℕ := b.rows.flatten.countP (· ≠ 0)

theorem total_eq_population {b : Board} (hcells : ∀ y x, b.cell y x ≤ 1) :
    b.total = b.population := by
  have hrows : ∀ row ∈ b.rows, ∀ n ∈ row, n ≤ 1 := by
    intro row hrow n hn
    obtain ⟨y, hy, rfl⟩ := List.mem_iff_getElem.mp hrow
    obtain ⟨x, hx, rfl⟩ := List.mem_iff_getElem.mp hn
    have hheight : y < b.height := b.length_rows ▸ hy
    obtain ⟨row, -, hrow', hcell⟩ := b.getElem?_rows y hheight
    obtain rfl : b.rows[y] = row := Option.some.inj ((List.getElem?_eq_getElem hy).symm.trans hrow')
    have hwidth : x < b.width := b.length_of_mem_rows hrow ▸ hx
    have hx' := hcell x hwidth
    rw [List.getElem?_eq_getElem hx, Option.some.injEq] at hx'
    rw [hx']
    exact hcells y x
  have hflatten : addUp (b.rows.map addUp) = addUp b.rows.flatten := List.sum_flatten.symm
  rw [total, hflatten, addUp_eq_countP, population]
  intro n hn
  obtain ⟨row, hrow, hn⟩ := List.mem_flatten.mp hn
  exact hrows row hrow n hn

end Board

end SubstitutionAutomata
