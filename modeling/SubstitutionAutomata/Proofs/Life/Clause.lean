import SubstitutionAutomata.Proofs.Life.Enumeration

/-! # What the clause of a window matches

The cells of a window may be any characters: what is not 0 in the centre changes to 0. The written
clause always reads back, and it takes the centre where the buffer shows the window. -/

namespace SubstitutionAutomata.Neighborhood

open Regex

/-! ## Windows without a clause -/

theorem target_ne_dead_iff (cells : Neighborhood) : cells.target ≠ dead ↔ cells.target = live := by
  rw [target]
  split <;> decide

/-- A stride that is too narrow is found first. -/
theorem eq_of_clause_eq_error {cells : Neighborhood} {stride : ℤ} {index : ℕ} {e : Clause.Error}
    (hlength : cells.length = size) (h : cells.clause stride index = .error e) :
    e = if stride < 3 then .narrowStride stride else .nothingToCopy cells.label live := by
  rw [clause, if_neg (not_not_intro hlength)] at h
  by_cases hstride : stride < 3
  · rw [if_pos hstride] at h ⊢
    exact (Except.error.inj h).symm
  · rw [if_neg hstride] at h ⊢
    split at h
    · rename_i hcopy
      rw [Bool.and_eq_true, decide_eq_true_iff] at hcopy
      rw [(cells.target_ne_dead_iff).mp hcopy.2] at h
      exact (Except.error.inj h).symm
    · cases h

/-! ## Windows of any characters -/

section Cells

variable {chars : List Char}

theorem target_eq_flipped_getElem (h9 : chars.length = 9) :
    (ofChars chars).target = (flipped chars[4]).toString :=
  target_eq_flipped (List.getElem?_eq_getElem _)

theorem target_eq_live_iff (h9 : chars.length = 9) :
    (ofChars chars).target = live ↔ flipped chars[4] = '1' := by
  rw [target_eq_flipped_getElem h9]
  change (flipped chars[4]).toString = '1'.toString ↔ _
  exact toString_injective.eq_iff

/-- Without a cell to copy, no cell beside the centre holds what the centre changes to. -/
theorem source?_eq_none_iff_not_mem (h9 : chars.length = 9) :
    (ofChars chars).source? = none ↔ flipped chars[4] ∉ chars.eraseIdx center := by
  rw [source?_eq_none_iff, target_eq_flipped_getElem h9, List.mem_eraseIdx_iff_getElem?]
  simp only [ne_eq, getElem?_ofChars_eq_toString, not_exists, not_and]

theorem refused_iff (h9 : chars.length = 9) (stride : ℤ) :
    (ofChars chars).Refused stride ↔
      stride < 3 ∨ flipped chars[4] = '1' ∧ '1' ∉ chars.eraseIdx center := by
  constructor
  · intro h
    cases h with
    | cellCount h => exact absurd ((List.length_map _).trans h9) h
    | narrowStride h => exact .inl h
    | nothingToCopy source target =>
        have hlive := (target_eq_live_iff h9).mp ((target_ne_dead_iff _).mp target)
        exact .inr ⟨hlive, hlive ▸ (source?_eq_none_iff_not_mem h9).mp source⟩
  · rintro (hstride | ⟨hlive, hnone⟩)
    · exact .narrowStride hstride
    · exact .nothingToCopy ((source?_eq_none_iff_not_mem h9).mpr (hlive ▸ hnone))
        ((target_ne_dead_iff _).mpr ((target_eq_live_iff h9).mpr hlive))

theorem exists_stride_of_clause (h9 : chars.length = 9) {stride : ℤ} {index : ℕ} {c : Clause}
    (h : (ofChars chars).clause stride index = .ok c) :
    ∃ s : ℕ, stride = s ∧ (ofChars chars).Compiles s ∧ c = (ofChars chars).compiled s index := by
  have hwritten : ¬ (ofChars chars).Refused stride := by
    rw [← clause_eq_error_iff _ stride index]
    rintro ⟨e, he⟩
    cases h.symm.trans he
  have hstride : 3 ≤ stride := by
    by_contra hnarrow
    exact hwritten (.narrowStride (by omega))
  obtain ⟨s, rfl⟩ := Int.eq_ofNat_of_zero_le (Int.le_trans (by decide) hstride)
  have hcompiles : (ofChars chars).Compiles s := by
    refine ⟨(List.length_map _).trans h9, by omega, fun hsource => ?_⟩
    by_contra htarget
    exact hwritten (.nothingToCopy hsource htarget)
  exact ⟨s, rfl, hcompiles, Except.ok.inj (h.symm.trans (clause_of_compiles hcompiles index))⟩

/-! ## Matching -/

theorem exists_matchAt_iff (h9 : chars.length = 9) {s : ℕ} (hcompiles : (ofChars chars).Compiles s)
    (name : String) (text : Array Char) (p : ℕ) :
    (∃ m, (concat ((ofChars chars).items s name)).matchAt text p = some m) ↔
      Matches chars s text.toList p := by
  obtain ⟨-, hs, htarget⟩ := hcompiles
  constructor
  · rintro ⟨m, hm⟩
    by_contra hnot
    rw [matchAt_items_of_not_matches text name chars h9 s p hs hnot] at hm
    cases hm
  · intro h
    obtain ⟨m, hm, -⟩ := matchAt_items_of_matches text name chars h9 s p hs htarget h
    exact ⟨m, hm⟩

end Cells

/-- A window of nine characters has no clause exactly if it does not fit into the stride, or if its
centre changes to a live cell and no other cell is live. Otherwise the clause reads back. It matches
a buffer at a position exactly if the window stands there and, where no cell beside the centre holds
what the centre changes to, a dead cell follows on the line. It takes the centre alone and captures
what the centre changes to. -/
theorem clause_matches_exactly_window (chars : List Char) (h9 : chars.length = 9) (stride : ℤ)
    (hlimit : stride < repeatLimit) (index : ℕ) :
    ((∃ e, (ofChars chars).clause stride index = .error e) ↔
        stride < 3 ∨ flipped chars[4] = '1' ∧ '1' ∉ chars.eraseIdx center) ∧
      (∀ e, (ofChars chars).clause stride index = .error e →
        e = if stride < 3 then .narrowStride stride
          else .nothingToCopy (ofChars chars).label live) ∧
      ∀ c, (ofChars chars).clause stride index = .ok c →
        c.captures = [captureName index] ∧
          ∃ (s : ℕ) (r : Regex), stride = s ∧ Regex.parse c.pattern.toList = .ok r ∧
            ∀ (text : Array Char) (p : ℕ),
              ((∃ m, r.matchAt text p = some m) ↔
                WindowAt chars s text.toList p ∧
                  (flipped chars[4] ∉ chars.eraseIdx center → DeadAhead s text.toList p)) ∧
              ∀ m, r.matchAt text p = some m →
                m.stop = p + 1 ∧ m.captured text (captureName index) = [flipped chars[4]] := by
  have hlength : (ofChars chars).length = size := (List.length_map _).trans h9
  refine ⟨?_, fun e => eq_of_clause_eq_error hlength, fun c hc => ?_⟩
  · rw [clause_eq_error_iff, refused_iff h9]
  · obtain ⟨s, rfl, hcompiles, rfl⟩ := exists_stride_of_clause h9 hc
    have hparse := Rule.parse_compiled chars h9 hcompiles.2.1 (by omega) index
    refine ⟨rfl, s, _, rfl, hparse, fun text p => ⟨?_, fun m hm => ?_⟩⟩
    · rw [← source?_eq_none_iff_not_mem h9]
      exact exists_matchAt_iff h9 hcompiles _ text p
    · have hmatches := (exists_matchAt_iff h9 hcompiles _ text p).mp ⟨m, hm⟩
      obtain ⟨m', hm', hcentre⟩ := matchAt_items_of_matches text (captureName index) chars h9 s p
        hcompiles.2.1 hcompiles.2.2 hmatches
      obtain rfl := Option.some.inj (hm'.symm.trans hm)
      refine ⟨hcentre.stop, ?_⟩
      rw [hcentre.captured_eq, target_eq_flipped_getElem h9]
      simp [Char.toString]

/-- A window with a line feed and an operator among its cells. Its centre dies, and only the cells
after the window can be copied. -/
def unusual : List Char := "111\n2*111".toList

/-- Where no dead cell follows the window, its clause does not match. -/
theorem clause_matches_exactly_window_unusual :
    unusual.length = 9 ∧ (5 : ℤ) < repeatLimit ∧ ∃ c r m,
      (ofChars unusual).clause 5 3 = .ok c ∧ Regex.parse c.pattern.toList = .ok r ∧
        r.matchAt "111xy\n2*zw111ab0".toList.toArray 6 = some m ∧ m.stop = 7 ∧
        m.captured "111xy\n2*zw111ab0".toList.toArray "replace_3" = ['0'] ∧
        ¬ ∃ m, r.matchAt "111xy\n2*zw111ab\n0".toList.toArray 6 = some m := by
  have h9 : unusual.length = 9 := by decide
  have hlimit : (5 : ℤ) < repeatLimit := by decide
  have hclause : (ofChars unusual).clause 5 3 = .ok ((ofChars unusual).compiled 5 3) :=
    clause_of_compiles ⟨by decide, by decide, by decide⟩ 3
  obtain ⟨-, -, hwritten⟩ := clause_matches_exactly_window unusual h9 5 hlimit 3
  obtain ⟨-, s, r, hs, hr, hmatches⟩ := hwritten _ hclause
  obtain rfl : 5 = s := by omega
  obtain ⟨hexists, hspec⟩ := hmatches "111xy\n2*zw111ab0".toList.toArray 6
  obtain ⟨m, hm⟩ := hexists.mpr
    ⟨⟨by decide, by decide, by decide⟩, fun _ => by decide⟩
  obtain ⟨hstop, hcaptured⟩ := hspec m hm
  refine ⟨h9, hlimit, _, r, m, hclause, hr, hm, hstop, hcaptured, fun hmatch => ?_⟩
  obtain ⟨-, hdead⟩ := (hmatches _ 6).1.mp hmatch
  have hnone : flipped '2' ∉ unusual.eraseIdx center := by decide
  exact absurd (hdead hnone) (by decide)

end SubstitutionAutomata.Neighborhood
