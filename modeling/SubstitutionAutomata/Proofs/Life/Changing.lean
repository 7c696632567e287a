import SubstitutionAutomata.Proofs.Life.Window
import Mathlib.Data.List.Count
import Mathlib.Data.List.InsertIdx
import Mathlib.Data.Nat.Init

/-! # The windows that change

The windows of a rule are all windows of binary cells whose centre changes. If a dead cell is never
born without live neighbours, each of them has a clause. -/

namespace SubstitutionAutomata

namespace Neighborhood

/-! ## Windows of binary cells -/

/-- The binary digits of the number of a window, highest first. -/
def digits (n : ℕ) : List Char :=
  (List.range size).map fun i => if n.testBit (size - 1 - i) then '1' else '0'

theorem ofNat_eq_ofChars (n : ℕ) : ofNat n = ofChars (digits n) := by
  rw [ofNat, ofChars, digits, List.map_map]
  apply List.map_congr_left
  intro i _
  rw [Function.comp_apply, apply_ite Char.toString]
  rfl

theorem length_digits (n : ℕ) : (digits n).length = 9 := by simp [digits, size]

theorem binary_of_mem_digits {n : ℕ} {c : Char} (h : c ∈ digits n) : c = '0' ∨ c = '1' := by
  obtain ⟨i, -, rfl⟩ := List.mem_map.mp h
  split
  · exact .inr rfl
  · exact .inl rfl

theorem exists_digits_eq (chars : List Char) (h9 : chars.length = 9)
    (hbinary : ∀ c ∈ chars, c = '0' ∨ c = '1') : ∃ n < 512, digits n = chars := by
  let bits : Fin 9 → Bool := fun i => chars[8 - i.val] == '1'
  refine ⟨Nat.ofBits bits, Nat.ofBits_lt_two_pow bits, ?_⟩
  apply List.ext_getElem (by rw [length_digits, h9])
  intro i hi hi'
  have hlt : size - 1 - i < 9 := by
    simp only [size]
    omega
  have hback : 8 - (size - 1 - i) = i := by
    simp only [size]
    omega
  have hbit : (Nat.ofBits bits).testBit (size - 1 - i) = (chars[i] == '1') := by
    rw [Nat.testBit_ofBits_lt bits _ hlt]
    simp only [bits, hback]
  simp only [digits, List.getElem_map, List.getElem_range, hbit]
  rcases hbinary chars[i] (List.getElem_mem hi') with hc | hc <;> simp [hc]

/-! ## Their centre and their live cells -/

theorem toString_injective : Function.Injective Char.toString := by
  intro c d h
  exact String.singleton_inj.mp h

theorem getElem?_ofChars_eq_toString (chars : List Char) (i : ℕ) (c : Char) :
    (ofChars chars)[i]? = some c.toString ↔ chars[i]? = some c := by
  rw [ofChars, List.getElem?_map]
  cases chars[i]? <;> simp

theorem target_ofChars (chars : List Char) :
    (ofChars chars).target = if chars[4]? = some '0' then live else dead := by
  rw [target]
  exact if_congr (getElem?_ofChars_eq_toString chars 4 '0') rfl rfl

theorem changesUnder_ofChars (rule : Rule) (chars : List Char) :
    (ofChars chars).changesUnder rule =
      rule.changes (chars[4]? = some '1') ((chars.eraseIdx 4).count '1') := by
  have halive : (ofChars chars).centerAlive = decide (chars[4]? = some '1') :=
    decide_eq_decide.mpr (getElem?_ofChars_eq_toString chars 4 '1')
  have hcount : (ofChars chars).liveNeighbors = (chars.eraseIdx 4).count '1' := by
    rw [liveNeighbors, ofChars, List.eraseIdx_map]
    exact List.count_map_of_injective _ _ toString_injective '1'
  rw [changesUnder, halive, hcount]

theorem source?_eq_none_iff (cells : Neighborhood) :
    cells.source? = none ↔ ∀ i, i ≠ center → cells[i]? ≠ some cells.target := by
  rw [source?, List.find?_eq_none]
  constructor
  · intro h i hi hcell
    have hlt : i < cells.length := (List.getElem?_eq_some_iff.mp hcell).1
    exact h i (List.mem_range.mpr hlt) (by simp [hi, hcell])
  · intro h i _ hfound
    simp only [Bool.and_eq_true, decide_eq_true_eq] at hfound
    exact h i hfound.1 hfound.2

/-- A window has no cell to copy only if its centre dies among live cells: a dead centre without
live cells around it stays as it is. -/
theorem target_eq_dead {rule : Rule} {cells : Neighborhood} (hbirth : 0 ∉ rule.birth)
    (h : cells.changesUnder rule = true) (hsource : cells.source? = none) :
    cells.target = dead := by
  rw [source?_eq_none_iff] at hsource
  by_contra htarget
  have hcentre : cells[center]? = some dead := by
    by_contra hcentre
    exact htarget (if_neg hcentre)
  have hlive : cells.target = live := if_pos hcentre
  have hcount : cells.liveNeighbors = 0 := by
    rw [liveNeighbors, List.count_eq_zero, List.mem_eraseIdx_iff_getElem?]
    rintro ⟨i, hi, hcell⟩
    exact hsource i hi (hlive ▸ hcell)
  have halive : cells.centerAlive = false := by
    rw [centerAlive, hcentre]
    decide
  rw [changesUnder, Rule.changes, halive, hcount] at h
  exact hbirth (by simpa using h)

end Neighborhood

open Neighborhood

theorem Rule.mem_changingNeighborhoods_iff (rule : Rule) (cells : Neighborhood) :
    cells ∈ rule.changingNeighborhoods ↔
      ∃ chars : List Char, cells = ofChars chars ∧ chars.length = 9 ∧
        (∀ c ∈ chars, c = '0' ∨ c = '1') ∧ (ofChars chars).changesUnder rule = true := by
  rw [changingNeighborhoods, List.mem_filter, List.mem_map]
  constructor
  · rintro ⟨⟨n, -, rfl⟩, hchanges⟩
    rw [ofNat_eq_ofChars] at hchanges ⊢
    exact ⟨digits n, rfl, length_digits n, fun c hc => binary_of_mem_digits hc, hchanges⟩
  · rintro ⟨chars, rfl, h9, hbinary, hchanges⟩
    obtain ⟨n, hn, rfl⟩ := exists_digits_eq chars h9 hbinary
    exact ⟨⟨n, List.mem_range.mpr hn, ofNat_eq_ofChars n⟩, hchanges⟩

theorem Rule.ofChars_mem_changingNeighborhoods_iff (rule : Rule) (chars : List Char) :
    ofChars chars ∈ rule.changingNeighborhoods ↔
      chars.length = 9 ∧ (∀ c ∈ chars, c = '0' ∨ c = '1') ∧
        (ofChars chars).changesUnder rule = true := by
  rw [mem_changingNeighborhoods_iff]
  constructor
  · rintro ⟨others, h, hothers⟩
    obtain rfl : chars = others := List.map_injective_iff.mpr toString_injective h
    exact hothers
  · intro h
    exact ⟨chars, rfl, h⟩

end SubstitutionAutomata
