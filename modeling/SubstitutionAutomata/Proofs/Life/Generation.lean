import SubstitutionAutomata.Proofs.Board.Layout
import SubstitutionAutomata.Proofs.Life.Flips
import Mathlib.Data.List.TakeWhile

/-! # One pass on a bordered board

On the bordered buffer of a binary board a pass rewrites the cells that change and nothing else, so
it leads to the buffer of the next board of the reference automaton. -/

namespace SubstitutionAutomata

/-! ## The window of a cell -/

/-- The rows and columns of the window of a cell, counted from the margin. -/
def windowPlaces (y x : ℕ) : List (ℕ × ℕ) :=
  [(y, x), (y, x + 1), (y, x + 2), (y + 1, x), (y + 1, x + 1), (y + 1, x + 2), (y + 2, x),
    (y + 2, x + 1), (y + 2, x + 2)]

theorem bounds_of_mem_windowPlaces {y x : ℕ} {place : ℕ × ℕ} (h : place ∈ windowPlaces y x) :
    place.1 ≤ y + 2 ∧ place.2 ≤ x + 2 := by
  simp only [windowPlaces, List.mem_cons, List.not_mem_nil, or_false] at h
  rcases h with rfl | rfl | rfl | rfl | rfl | rfl | rfl | rfl | rfl <;> constructor <;> omega

theorem windowIndices_place (s y x : ℕ) :
    windowIndices s ((y + 1) * s + (x + 1)) =
      (windowPlaces y x).map fun place => place.1 * s + place.2 := by
  have hone : (y + 1) * s = y * s + s := Nat.succ_mul y s
  have htwo : (y + 2) * s = y * s + s + s := by rw [Nat.succ_mul, hone]
  simp only [windowIndices, windowPlaces, List.map_cons, List.map_nil, List.cons.injEq, and_true,
    hone, htwo]
  refine ⟨?_, ?_, ?_, ?_, trivial, ?_, ?_, ?_, ?_⟩
  all_goals omega

theorem Board.neighborSum_eq (b : Board) (y x : ℕ) :
    b.neighborSum y x =
      addUp (((windowPlaces y x).eraseIdx 4).map fun place => b.padded place.1 place.2) := by
  simp [neighborSum, kernel, windowPlaces, addUp]
  omega

theorem place_inj {s r c r' c' : ℕ} (hc : c < s) (hc' : c' < s)
    (h : r * s + c = r' * s + c') : r = r' ∧ c = c' := by
  have hpos : 0 < s := Nat.zero_lt_of_lt hc
  have hfirst := (Nat.div_mod_unique hpos).mpr
    ⟨show c + s * r = r * s + c by rw [Nat.mul_comm, Nat.add_comm], hc⟩
  have hsecond := (Nat.div_mod_unique hpos).mpr
    ⟨show c' + s * r' = r * s + c by rw [h, Nat.mul_comm, Nat.add_comm], hc'⟩
  exact ⟨hfirst.1.symm.trans hsecond.1, hfirst.2.symm.trans hsecond.2⟩

namespace Layout

variable (l : Layout) (b : Board)

theorem getElem?_of_mem_windowPlaces (hb : l.bordered = true) (hheight : b.height = l.height)
    (hwidth : b.width = l.width) {y x : ℕ} (hy : y < l.height) (hx : x < l.width) {place : ℕ × ℕ}
    (h : place ∈ windowPlaces y x) :
    (l.encodeBoard b)[place.1 * l.stride + place.2]? =
      some (cellChar (b.padded place.1 place.2)) := by
  obtain ⟨hr, hc⟩ := bounds_of_mem_windowPlaces h
  have hstride := stride_of_bordered l hb
  rw [getElem?_encodeBoard l b hb hheight hwidth place.1 place.2 (by omega) (by omega),
    charAt_of_ne l b (by omega)]

theorem cellChar_eq_one_iff {n : ℕ} (h : n ≤ 1) : cellChar n = '1' ↔ n = 1 := by
  rw [cellChar_eq_one_iff_ne]
  omega

theorem liveAround_encodeBoard (hb : l.bordered = true) (hheight : b.height = l.height)
    (hwidth : b.width = l.width) (hcells : ∀ y x, b.cell y x ≤ 1) {y x : ℕ} (hy : y < l.height)
    (hx : x < l.width) :
    liveAround l.stride (l.encodeBoard b) ((y + 1) * l.stride + (x + 1)) = b.neighborSum y x := by
  have hcount : ∀ places : List (ℕ × ℕ), (∀ place ∈ places, place ∈ windowPlaces y x) →
      ((places.map fun place => place.1 * l.stride + place.2).countP
        fun i => (l.encodeBoard b)[i]? = some '1') =
      addUp (places.map fun place => b.padded place.1 place.2) := by
    intro places
    induction places with
    | nil => simp [addUp]
    | cons place places ih =>
        intro hplaces
        have hplace := getElem?_of_mem_windowPlaces l b hb hheight hwidth hy hx
          (hplaces place (by simp))
        have hone := b.padded_le_one hcells place.1 place.2
        rw [List.map_cons, List.countP_cons, List.map_cons, addUp_cons,
          ih fun other hother => hplaces other (List.mem_cons_of_mem _ hother), hplace]
        simp only [Option.some.injEq, cellChar_eq_one_iff hone, decide_eq_true_eq]
        split <;> omega
  rw [liveAround, neighborIndices, windowIndices_place, List.eraseIdx_map, b.neighborSum_eq]
  exact hcount _ fun place h => List.mem_of_mem_eraseIdx h

/-! ## Where a bordered board is rewritten -/

theorem exists_place_of_mem_windowIndices (hb : l.bordered = true) (hheight : b.height = l.height)
    (hwidth : b.width = l.width) {y x i : ℕ} (hy : y < l.height) (hx : x < l.width)
    (hi : i ∈ windowIndices l.stride (l.index y x)) :
    ∃ place ∈ windowPlaces y x,
      (l.encodeBoard b)[i]? = some (cellChar (b.padded place.1 place.2)) := by
  rw [index_of_bordered l hb, windowIndices_place] at hi
  obtain ⟨place, hplace, rfl⟩ := List.mem_map.mp hi
  exact ⟨place, hplace, getElem?_of_mem_windowPlaces l b hb hheight hwidth hy hx hplace⟩

theorem changes_encodeBoard (hb : l.bordered = true) (hheight : b.height = l.height)
    (hwidth : b.width = l.width) (hcells : ∀ y x, b.cell y x ≤ 1) (rule : Rule) {y x : ℕ}
    (hy : y < l.height) (hx : x < l.width) :
    rule.changes ((l.encodeBoard b)[l.index y x]? = some '1')
        (liveAround l.stride (l.encodeBoard b) (l.index y x)) =
      rule.changes (b.cell y x = 1) (b.neighborSum y x) := by
  have hlive : (l.encodeBoard b)[l.index y x]? = some '1' ↔ b.cell y x = 1 := by
    rw [getElem?_index l b hheight hwidth hy hx, Option.some.injEq,
      cellChar_eq_one_iff (hcells y x)]
  rw [decide_eq_decide.mpr hlive, index_of_bordered l hb,
    liveAround_encodeBoard l b hb hheight hwidth hcells hy hx]

theorem succ_three_mul (y s : ℕ) : (y + 3) * s = (y + 1) * s + s + s := by
  rw [Nat.succ_mul, Nat.succ_mul]

/-- A window all live ends above the bottom margin, where the first cell is dead. -/
theorem deadAhead_encodeBoard (hb : l.bordered = true) (hheight : b.height = l.height)
    (hwidth : b.width = l.width) {y x : ℕ} (hx : x < l.width) (hy : y + 1 < l.height) :
    DeadAhead l.stride (l.encodeBoard b) (l.index y x) := by
  have hstride := stride_of_bordered l hb
  have hnewline := newline_not_mem_encodeBoard l b hb hheight hwidth
  have hbottom := getElem?_encodeBoard l b hb hheight hwidth (l.height + 1) 0 (by omega) (by omega)
  rw [charAt_of_ne l b (by omega), Board.padded_zero_right] at hbottom
  have hrows : (y + 3) * l.stride ≤ (l.height + 1) * l.stride := Nat.mul_le_mul_right _ (by omega)
  have hthree := succ_three_mul y l.stride
  rw [index_of_bordered l hb, DeadAhead, List.takeWhile_eq_self_iff.mpr]
  · rw [List.mem_iff_getElem?]
    refine ⟨(l.height + 1) * l.stride - ((y + 1) * l.stride + (x + 1) + l.stride + 2), ?_⟩
    rw [List.getElem?_drop, Nat.add_sub_cancel' (by omega)]
    exact hbottom
  · intro c hc
    have hne : c ≠ '\n' := fun he => hnewline (he ▸ List.mem_of_mem_drop hc)
    simpa using hne

/-- The row below the last one is dead, so a window all live is above it. -/
theorem lt_of_live_window (hb : l.bordered = true) (hheight : b.height = l.height)
    (hwidth : b.width = l.width) {y x : ℕ} (hy : y < l.height) (hx : x < l.width)
    (hlive : ∀ i ∈ windowIndices l.stride (l.index y x), (l.encodeBoard b)[i]? = some '1') :
    y + 1 < l.height := by
  by_contra hlast
  have hplace : (y + 2, x) ∈ windowPlaces y x := by simp [windowPlaces]
  have hbelow := getElem?_of_mem_windowPlaces l b hb hheight hwidth hy hx hplace
  have hzero : b.padded (y + 2) x = 0 := b.padded_eq_zero _ _ (by omega)
  have hone := hlive ((y + 2) * l.stride + x) (by
    rw [index_of_bordered l hb, windowIndices_place]
    exact List.mem_map_of_mem hplace)
  rw [hbelow, hzero] at hone
  cases hone

theorem flips_encodeBoard (hb : l.bordered = true) (hheight : b.height = l.height)
    (hwidth : b.width = l.width) (hcells : ∀ y x, b.cell y x ≤ 1) (rule : Rule) {y x : ℕ}
    (hy : y < l.height) (hx : x < l.width)
    (hchanges : rule.changes (b.cell y x = 1) (b.neighborSum y x) = true) :
    rule.Flips l.stride (l.encodeBoard b) (l.index y x) := by
  have hstride := stride_of_bordered l hb
  have hnewline := newline_not_mem_encodeBoard l b hb hheight hwidth
  have hsucc : (y + 1) * l.stride = y * l.stride + l.stride := Nat.succ_mul ..
  have hrows : (y + 3) * l.stride ≤ (l.height + 2) * l.stride := Nat.mul_le_mul_right _ (by omega)
  have hthree := succ_three_mul y l.stride
  refine ⟨?_, ?_, ?_, ?_, ?_, ?_⟩
  · rw [index_of_bordered l hb]
    omega
  · rw [length_encodeBoard l b hb hheight hwidth, index_of_bordered l hb]
    omega
  · intro i hi
    obtain ⟨place, -, hcell⟩ := exists_place_of_mem_windowIndices l b hb hheight hwidth hy hx hi
    rw [hcell, cellChar]
    split
    · exact .inl rfl
    · exact .inr rfl
  · exact ⟨fun h => hnewline (List.mem_of_mem_drop (List.mem_of_mem_take h)),
      fun h => hnewline (List.mem_of_mem_drop (List.mem_of_mem_take h))⟩
  · rw [changes_encodeBoard l b hb hheight hwidth hcells rule hy hx]
    exact hchanges
  · intro hlive
    exact deadAhead_encodeBoard l b hb hheight hwidth hx
      (lt_of_live_window l b hb hheight hwidth hy hx hlive)

/-- The window around a position that is rewritten holds no separator. -/
theorem separator_not_mem_of_flips (hb : l.bordered = true) (hheight : b.height = l.height)
    (hwidth : b.width = l.width) {rule : Rule} {p r : ℕ}
    (h : rule.Flips l.stride (l.encodeBoard b) p) (hr : r < l.height + 2) :
    r * l.stride + (l.width + 2) ∉ windowIndices l.stride p := by
  intro hmem
  have hstride := stride_of_bordered l hb
  have hbinary := h.binary _ hmem
  rw [getElem?_encodeBoard l b hb hheight hwidth r _ hr (by omega), charAt_separator] at hbinary
  rcases hbinary with hbinary | hbinary <;> cases hbinary

/-- A position that is rewritten lies on the board: next to the margin there is a separator or the
end of the buffer. -/
theorem exists_index_of_flips (hb : l.bordered = true) (hheight : b.height = l.height)
    (hwidth : b.width = l.width) {rule : Rule} {p : ℕ}
    (h : rule.Flips l.stride (l.encodeBoard b) p) :
    ∃ y x, y < l.height ∧ x < l.width ∧ p = l.index y x := by
  have hstride := stride_of_bordered l hb
  have hpos : 0 < l.stride := by omega
  have hlength := length_encodeBoard l b hb hheight hwidth
  have habove := h.above
  have hbelow := h.below
  obtain ⟨r, c, hc, rfl⟩ : ∃ r c, c < l.stride ∧ p = r * l.stride + c :=
    ⟨p / l.stride, p % l.stride, Nat.mod_lt _ hpos, (Nat.div_add_mod' ..).symm⟩
  have hr : 1 ≤ r := by
    by_contra hr
    obtain rfl : r = 0 := by omega
    omega
  have hrows : r ≤ l.height := by
    by_contra hrows
    have hle : (l.height + 1) * l.stride ≤ r * l.stride := Nat.mul_le_mul_right _ (by omega)
    have hsucc : (l.height + 2) * l.stride = (l.height + 1) * l.stride + l.stride :=
      Nat.succ_mul ..
    omega
  have hseparator := fun r' => @separator_not_mem_of_flips l b hb hheight hwidth rule
    (r * l.stride + c) r' h
  have hself : c ≠ l.width + 2 := by
    rintro rfl
    exact hseparator r (by omega) (by simp [windowIndices])
  have hnext : c ≠ l.width + 1 := by
    rintro rfl
    exact hseparator r (by omega) (by simp [windowIndices, Nat.add_assoc])
  have hprevious : c ≠ 0 := by
    rintro rfl
    obtain ⟨r', rfl⟩ := Nat.exists_eq_add_of_le' hr
    have hindex : r' * l.stride + (l.width + 2) = (r' + 1) * l.stride + 0 - 1 := by
      rw [Nat.succ_mul]
      omega
    apply hseparator r' (by omega)
    rw [hindex]
    simp [windowIndices]
  refine ⟨r - 1, c - 1, by omega, by omega, ?_⟩
  rw [index_of_bordered l hb, Nat.sub_add_cancel hr, Nat.sub_add_cancel (by omega)]

/-- A pass rewrites exactly the cells of the board that change. -/
theorem flips_encodeBoard_iff (hb : l.bordered = true) (hheight : b.height = l.height)
    (hwidth : b.width = l.width) (hcells : ∀ y x, b.cell y x ≤ 1) (rule : Rule) (p : ℕ) :
    rule.Flips l.stride (l.encodeBoard b) p ↔
      ∃ y x, y < l.height ∧ x < l.width ∧ p = l.index y x ∧
        rule.changes (b.cell y x = 1) (b.neighborSum y x) = true := by
  constructor
  · intro h
    obtain ⟨y, x, hy, hx, rfl⟩ := exists_index_of_flips l b hb hheight hwidth h
    refine ⟨y, x, hy, hx, rfl, ?_⟩
    rw [← changes_encodeBoard l b hb hheight hwidth hcells rule hy hx]
    exact h.changes
  · rintro ⟨y, x, hy, hx, rfl, hchanges⟩
    exact flips_encodeBoard l b hb hheight hwidth hcells rule hy hx hchanges

theorem flips_index_iff (hb : l.bordered = true) (hheight : b.height = l.height)
    (hwidth : b.width = l.width) (hcells : ∀ y x, b.cell y x ≤ 1) (rule : Rule) {y x : ℕ}
    (hy : y < l.height) (hx : x < l.width) :
    rule.Flips l.stride (l.encodeBoard b) (l.index y x) ↔
      rule.changes (b.cell y x = 1) (b.neighborSum y x) = true := by
  have hstride := stride_of_bordered l hb
  rw [flips_encodeBoard_iff l b hb hheight hwidth hcells]
  constructor
  · rintro ⟨y', x', -, hx', hindex, hchanges⟩
    rw [index_of_bordered l hb, index_of_bordered l hb] at hindex
    obtain ⟨hrow, hcolumn⟩ := place_inj (by omega) (by omega) hindex
    obtain rfl : y = y' := by omega
    obtain rfl : x = x' := by omega
    exact hchanges
  · intro hchanges
    exact ⟨y, x, hy, hx, rfl, hchanges⟩

end Layout

/-! ## The next board -/

namespace Board

variable (b : Board) (rule : Rule)

theorem convolved_le_one (y x : ℕ) : (b.convolved rule).cell y x ≤ 1 := by
  rw [convolved, cell_tabulate]
  split
  · dsimp only
    split <;> omega
  · omega

/-- A cell of the next board differs exactly if the rule changes it. -/
theorem cell_convolved (hcells : ∀ y x, b.cell y x ≤ 1) {y x : ℕ} (hy : y < b.height)
    (hx : x < b.width) :
    (b.convolved rule).cell y x =
      if rule.changes (b.cell y x = 1) (b.neighborSum y x) then 1 - b.cell y x
      else b.cell y x := by
  rw [convolved, cell_tabulate, if_pos ⟨hy, hx⟩]
  rcases (by have := hcells y x; omega : b.cell y x = 0 ∨ b.cell y x = 1) with hc | hc
  · simp [hc, Rule.changes]
  · by_cases h : (b.neighborSum y x : Int) ∈ rule.survival <;> simp [hc, Rule.changes, h]

end Board

namespace Layout

variable (l : Layout) (b : Board)

theorem flipped_cellChar {n : ℕ} (h : n ≤ 1) : flipped (cellChar n) = cellChar (1 - n) := by
  rcases (by omega : n = 0 ∨ n = 1) with rfl | rfl <;> decide

theorem charAt_convolved_margin (hheight : b.height = l.height) (hwidth : b.width = l.width)
    (rule : Rule) {r c : ℕ} (h : ¬ (1 ≤ r ∧ r ≤ l.height ∧ 1 ≤ c ∧ c ≤ l.width)) :
    l.charAt (b.convolved rule) r c = l.charAt b r c := by
  rw [charAt, charAt, b.padded_eq_zero r c (by rwa [hheight, hwidth]),
    (b.convolved rule).padded_eq_zero r c (by
      rwa [show (b.convolved rule).height = l.height from hheight,
        show (b.convolved rule).width = l.width from hwidth])]

/-- The buffer of the next board is the buffer with its flips. -/
theorem encodeBoard_convolved (hb : l.bordered = true) (hheight : b.height = l.height)
    (hwidth : b.width = l.width) (hcells : ∀ y x, b.cell y x ≤ 1) (rule : Rule) :
    l.encodeBoard (b.convolved rule) =
      (l.encodeBoard b).mapIdx fun i c =>
        if rule.Flips l.stride (l.encodeBoard b) i then flipped c else c := by
  have hstride := stride_of_bordered l hb
  have hlength := length_encodeBoard l b hb hheight hwidth
  apply List.ext_getElem?
  intro i
  rw [List.getElem?_mapIdx]
  by_cases hi : i < (l.height + 2) * l.stride
  swap
  · have hlength' := length_encodeBoard l (b.convolved rule) hb hheight hwidth
    rw [List.getElem?_eq_none (by omega), List.getElem?_eq_none (by omega)]
    rfl
  obtain ⟨r, c, hr, hc, rfl⟩ : ∃ r c, r < l.height + 2 ∧ c < l.stride ∧ i = r * l.stride + c :=
    ⟨i / l.stride, i % l.stride, Nat.div_lt_of_lt_mul (by rwa [Nat.mul_comm] at hi),
      Nat.mod_lt _ (by omega), (Nat.div_add_mod' ..).symm⟩
  rw [getElem?_encodeBoard l (b.convolved rule) hb hheight hwidth r c hr hc,
    getElem?_encodeBoard l b hb hheight hwidth r c hr hc, Option.map_some]
  congr 1
  by_cases hplace : 1 ≤ r ∧ r ≤ l.height ∧ 1 ≤ c ∧ c ≤ l.width
  · obtain ⟨y, rfl⟩ := Nat.exists_eq_add_of_le' hplace.1
    obtain ⟨x, rfl⟩ := Nat.exists_eq_add_of_le' hplace.2.2.1
    have hy : y < l.height := by omega
    have hx : x < l.width := by omega
    have hflips := flips_index_iff l b hb hheight hwidth hcells rule hy hx
    rw [index_of_bordered l hb] at hflips
    rw [charAt_of_ne l _ (by omega), charAt_of_ne l _ (by omega), Board.padded_succ,
      Board.padded_succ, b.cell_convolved rule hcells (by omega) (by omega),
      flipped_cellChar (hcells y x), if_congr hflips rfl rfl]
    split <;> rfl
  · have hkept : ¬ rule.Flips l.stride (l.encodeBoard b) (r * l.stride + c) := by
      intro h
      obtain ⟨y, x, hy, hx, hindex⟩ := exists_index_of_flips l b hb hheight hwidth h
      rw [index_of_bordered l hb] at hindex
      obtain ⟨rfl, rfl⟩ := place_inj hc (by omega) hindex
      omega
    rw [if_neg hkept, charAt_convolved_margin l b hheight hwidth rule hplace]

end Layout

end SubstitutionAutomata
