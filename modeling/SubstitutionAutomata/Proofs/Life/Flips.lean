import SubstitutionAutomata.Proofs.Life.Pattern
import SubstitutionAutomata.Proofs.Regex.Pass

/-! # What one pass of a life pattern does

The pattern of a rule flips a cell of a flat buffer exactly where the buffer shows a whole window
around it whose centre changes. All cells are decided from the buffer as it was before the pass. -/

namespace SubstitutionAutomata

open Regex

/-- Where the cells around position `p` stand. -/
def neighborIndices (s p : ℕ) : List ℕ := (windowIndices s p).eraseIdx Neighborhood.center

/-- How many of the cells around a position are live. -/
def liveAround (s : ℕ) (b : List Char) (p : ℕ) : ℕ :=
  (neighborIndices s p).countP fun i => b[i]? = some '1'

/-- What a cell that changes is rewritten to. -/
def flipped (c : Char) : Char := if c = '0' then '1' else '0'

/-- A position of a flat buffer with rows `s` apart is rewritten: the window around it is inside
the buffer, each of its rows lies on one line, its centre changes, and if all of it is live there is
a dead cell to copy. -/
structure Rule.Flips (rule : Rule) (s : ℕ) (b : List Char) (p : ℕ) : Prop where
  above : s + 1 ≤ p
  below : p + s + 1 < b.length
  binary : ∀ i ∈ windowIndices s p, b[i]? = some '0' ∨ b[i]? = some '1'
  gaps : '\n' ∉ b.extract (p - s + 2) (p - 1) ∧ '\n' ∉ b.extract (p + 2) (p + s - 1)
  changes : rule.changes (b[p]? = some '1') (liveAround s b p) = true
  scan : (∀ i ∈ windowIndices s p, b[i]? = some '1') → DeadAhead s b p

instance (s : ℕ) (b : List Char) (p : ℕ) : Decidable (DeadAhead s b p) :=
  inferInstanceAs (Decidable (_ ∈ _))

instance (rule : Rule) (s : ℕ) (b : List Char) (p : ℕ) : Decidable (rule.Flips s b p) :=
  decidable_of_iff
    (s + 1 ≤ p ∧ p + s + 1 < b.length ∧
      (∀ i ∈ windowIndices s p, b[i]? = some '0' ∨ b[i]? = some '1') ∧
      ('\n' ∉ b.extract (p - s + 2) (p - 1) ∧ '\n' ∉ b.extract (p + 2) (p + s - 1)) ∧
      rule.changes (b[p]? = some '1') (liveAround s b p) = true ∧
      ((∀ i ∈ windowIndices s p, b[i]? = some '1') → DeadAhead s b p))
    ⟨fun ⟨h₁, h₂, h₃, h₄, h₅, h₆⟩ => ⟨h₁, h₂, h₃, h₄, h₅, h₆⟩,
      fun ⟨h₁, h₂, h₃, h₄, h₅, h₆⟩ => ⟨h₁, h₂, h₃, h₄, h₅, h₆⟩⟩

/-! ## Windows of the buffer -/

namespace WindowAt

variable {cs : List Char} {s : ℕ} {b : List Char} {p : ℕ}

theorem centre (h : WindowAt cs s b p) : b[p]? = cs[4]? := by
  have hcells := congrArg (fun l => l[4]?.join) h.cells
  rw [List.getElem?_map, List.getElem?_map] at hcells
  cases hc : cs[4]? <;> simpa [windowIndices, hc] using hcells

theorem liveAround_eq (h : WindowAt cs s b p) :
    liveAround s b p = (cs.eraseIdx 4).count '1' := by
  have hcells := congrArg (fun l => (l.eraseIdx 4).count (some '1')) h.cells
  simp only [List.eraseIdx_map] at hcells
  rw [List.count_map_of_injective _ some fun _ _ => Option.some.inj] at hcells
  rw [← hcells, List.count_eq_countP, List.countP_map, liveAround]
  apply List.countP_congr
  intro i _
  simp

theorem exists_mem_of_mem_windowIndices (h : WindowAt cs s b p) {i : ℕ}
    (hi : i ∈ windowIndices s p) : ∃ c ∈ cs, b[i]? = some c := by
  have hmem : b[i]? ∈ cs.map some := by
    rw [← h.cells]
    exact List.mem_map_of_mem hi
  obtain ⟨c, hc, hcell⟩ := List.mem_map.mp hmem
  exact ⟨c, hc, hcell.symm⟩

theorem exists_mem_windowIndices_of_mem (h : WindowAt cs s b p) {c : Char} (hc : c ∈ cs) :
    ∃ i ∈ windowIndices s p, b[i]? = some c := by
  have hmem : some c ∈ (windowIndices s p).map (b[·]?) := by
    rw [h.cells]
    exact List.mem_map_of_mem hc
  exact List.mem_map.mp hmem

end WindowAt

open Neighborhood

theorem Neighborhood.target_eq_flipped {chars : List Char} {c : Char} (hc : chars[4]? = some c) :
    (ofChars chars).target = (flipped c).toString := by
  rw [target_ofChars, hc, flipped]
  by_cases hzero : c = '0'
  · rw [if_pos (congrArg some hzero), if_pos hzero]
    rfl
  · rw [if_neg (mt Option.some.inj hzero), if_neg hzero]
    rfl

namespace Rule.Flips

variable {rule : Rule} {s : ℕ} {b : List Char} {p : ℕ}

theorem exists_windowAt (h : rule.Flips s b p) :
    ∃ chars : List Char, chars.length = 9 ∧ (∀ c ∈ chars, c = '0' ∨ c = '1') ∧
      WindowAt chars s b p := by
  have hcell : ∀ i ∈ windowIndices s p, b[i]? = some (b.getD i '0') := by
    intro i hi
    rcases h.binary i hi with hc | hc <;> simp [hc]
  refine ⟨(windowIndices s p).map fun i => b.getD i '0', rfl, ?_, h.above, ?_, h.gaps⟩
  · intro c hc
    obtain ⟨i, hi, rfl⟩ := List.mem_map.mp hc
    rcases h.binary i hi with hc | hc <;> simp [hc]
  · rw [List.map_map]
    exact List.map_congr_left hcell

theorem of_matches {chars : List Char} (h : ofChars chars ∈ rule.changingNeighborhoods)
    (hm : Matches chars s b p) : rule.Flips s b p := by
  obtain ⟨hwindow, hscan⟩ := hm
  obtain ⟨-, hbinary, hchanges⟩ := (rule.ofChars_mem_changingNeighborhoods_iff chars).mp h
  have hlast : ∃ c ∈ chars, b[p + s + 1]? = some c :=
    hwindow.exists_mem_of_mem_windowIndices (by simp [windowIndices])
  refine ⟨hwindow.above, ?_, ?_, hwindow.gaps, ?_, ?_⟩
  · obtain ⟨c, -, hc⟩ := hlast
    exact (List.getElem?_eq_some_iff.mp hc).1
  · intro i hi
    obtain ⟨c, hc, hcell⟩ := hwindow.exists_mem_of_mem_windowIndices hi
    rcases hbinary c hc with rfl | rfl
    · exact .inl hcell
    · exact .inr hcell
  · rwa [hwindow.centre, hwindow.liveAround_eq, ← changesUnder_ofChars]
  · intro hlive
    apply hscan
    rw [source?_eq_none_iff, target_ofChars]
    have hcells : ∀ (i : ℕ) (c : Char), chars[i]? = some c → c = '1' := by
      intro i c hc
      obtain ⟨j, hj, hcell⟩ := hwindow.exists_mem_windowIndices_of_mem (List.mem_of_getElem? hc)
      exact Option.some.inj (hcell.symm.trans (hlive j hj))
    have hcentre : chars[4]? ≠ some '0' := fun hc => absurd (hcells 4 '0' hc) (by decide)
    rw [if_neg hcentre]
    intro i _ hi
    have hc := (getElem?_ofChars_eq_toString chars i '0').mp hi
    exact absurd (hcells i '0' hc) (by decide)

theorem exists_matches (hbirth : 0 ∉ rule.birth) (h : rule.Flips s b p) :
    ∃ chars, ofChars chars ∈ rule.changingNeighborhoods ∧ Matches chars s b p := by
  obtain ⟨chars, h9, hbinary, hwindow⟩ := h.exists_windowAt
  have hchanges : (ofChars chars).changesUnder rule = true := by
    rw [changesUnder_ofChars, ← hwindow.centre, ← hwindow.liveAround_eq]
    exact h.changes
  have hmem := (rule.ofChars_mem_changingNeighborhoods_iff chars).mpr ⟨h9, hbinary, hchanges⟩
  refine ⟨chars, hmem, hwindow, fun hsource => h.scan fun i hi => ?_⟩
  -- without a cell to copy the centre dies, and every cell that is not live could be copied
  have htarget := target_eq_dead hbirth hchanges hsource
  rw [source?_eq_none_iff, htarget] at hsource
  obtain ⟨c, hc, hcell⟩ := hwindow.exists_mem_of_mem_windowIndices hi
  rw [hcell]
  rcases hbinary c hc with rfl | rfl
  · obtain ⟨k, hk⟩ := List.mem_iff_getElem?.mp hc
    by_cases hcentre : k = center
    · have hzero : chars[4]? = some '0' := by
        rwa [hcentre] at hk
      rw [target_ofChars, if_pos hzero] at htarget
      exact absurd htarget (by decide)
    · exact absurd ((getElem?_ofChars_eq_toString chars k '0').mpr hk) (hsource k hcentre)
  · rfl

end Rule.Flips

/-! ## The pass

The clauses may stand in any order, and the template may refer to their captures in any order: all
clauses that match at a position have the window that stands there. -/

namespace Rule

variable {rule : Rule} {s : ℕ} (text : Array Char) (p : ℕ)

theorem matchAt_of_not_flips (hs : 3 ≤ s) {bodies : List (List Regex)}
    (hbodies : bodies.Perm (rule.clauseItems s)) (h : ¬ rule.Flips s text.toList p) :
    (clauseChoice bodies).matchAt text p = none := by
  rw [matchAt_clauseChoice, List.findSome?_eq_none_iff]
  intro items hitems
  obtain ⟨chars, i, h9, hmem, rfl⟩ := mem_clauseItems (hbodies.mem_iff.mp hitems)
  apply matchAt_items_of_not_matches text _ chars h9 s p hs
  intro hm
  exact h (Flips.of_matches (List.fst_mem_of_mem_zipIdx hmem) hm)

/-- Where a position flips, the clause of the window there matches, and what it captures is what the
position flips to. -/
theorem matchAt_of_flips (hbirth : 0 ∉ rule.birth) (hs : 3 ≤ s) {bodies : List (List Regex)}
    (hbodies : bodies.Perm (rule.clauseItems s)) (h : rule.Flips s text.toList p) :
    ∃ m chars i, (clauseChoice bodies).matchAt text p = some m ∧
      WindowAt chars s text.toList p ∧ captureName i ∈ rule.captureNames ∧
      MatchesCentre text (ofChars chars) (captureName i) p m := by
  have htarget : ∀ chars, ofChars chars ∈ rule.changingNeighborhoods →
      (ofChars chars).source? = none → (ofChars chars).target = dead := fun chars hmem =>
    (compiles_of_mem hbirth hs hmem).2.2
  obtain ⟨chars, hmem, hmatches⟩ := h.exists_matches hbirth
  obtain ⟨i, hi⟩ := List.mem_iff_getElem?.mp hmem
  have hitems : (ofChars chars).items s (captureName i) ∈ rule.clauseItems s :=
    List.mem_map.mpr ⟨(ofChars chars, i), List.mem_zipIdx_iff_getElem?.mpr hi, rfl⟩
  have hfound : (bodies.findSome? fun items =>
      (concat items).matchAt text p).isSome = true := by
    have h9 := ((rule.ofChars_mem_changingNeighborhoods_iff chars).mp hmem).1
    obtain ⟨m, hm, -⟩ := matchAt_items_of_matches text (captureName i) chars h9 s p hs
      (htarget chars hmem) hmatches
    exact List.findSome?_isSome_iff.mpr ⟨_, hbodies.mem_iff.mpr hitems, by rw [hm]; rfl⟩
  obtain ⟨m, hm⟩ := Option.isSome_iff_exists.mp hfound
  obtain ⟨items, hitems, hmatch⟩ := List.exists_of_findSome?_eq_some hm
  obtain ⟨chars, i, h9, hmem, rfl⟩ := mem_clauseItems (hbodies.mem_iff.mp hitems)
  have hmatches : Matches chars s text.toList p := by
    by_contra hnot
    rw [matchAt_items_of_not_matches text _ chars h9 s p hs hnot] at hmatch
    cases hmatch
  obtain ⟨m', hm', hcentre⟩ := matchAt_items_of_matches text (captureName i) chars h9 s p hs
    (htarget chars (List.fst_mem_of_mem_zipIdx hmem)) hmatches
  obtain rfl : m = m' := Option.some.inj (hmatch.symm.trans hm')
  exact ⟨m, chars, i, (matchAt_clauseChoice _ text p).trans hm, hmatches.1, captureName_mem hmem,
    hcentre⟩

theorem expand_of_matchesCentre {chars : List Char} {i : ℕ} {m : Match} {names : List String}
    (hnodup : names.Nodup) (hname : captureName i ∈ names)
    (hm : MatchesCentre text (ofChars chars) (captureName i) p m) :
    Template.expand (names.map .capture) text p m = (ofChars chars).target.toList := by
  have hother : ∀ other ∈ names, other ≠ captureName i →
      m.captured text other = [] := by
    intro other _ hne
    apply m.captured_of_forall_ne
    intro span hspan
    exact hne (hm.captures other span hspan).1
  rw [Template.expand_captures_of_mem text p m _ _ hnodup hname hother, hm.captured_eq]

theorem toList_target {chars b : List Char} (h : WindowAt chars s b p) {c : Char}
    (hc : b[p]? = some c) : (ofChars chars).target.toList = [flipped c] := by
  rw [target_eq_flipped (h.centre ▸ hc)]
  simp [Char.toString]

/-- One pass rewrites every position that flips, and counts them. -/
theorem apply_of_perm (hbirth : 0 ∉ rule.birth) (hs : 3 ≤ s) {p : Pattern}
    {bodies : List (List Regex)} {names : List String}
    (hbodies : bodies.Perm (rule.clauseItems s)) (hnames : names.Perm rule.captureNames)
    (hregex : p.regex = clauseChoice bodies)
    (htemplate : Template.ofText p.regex.names p.template = .ok (names.map .capture))
    (b : String) :
    p.apply b =
      .ok (String.ofList (b.toList.mapIdx fun i c =>
          if rule.Flips s b.toList i then flipped c else c),
        (List.range b.toList.length).countP fun i => rule.Flips s b.toList i) := by
  let chars := b.toList
  have hmatch : ∀ q, rule.Flips s chars.toArray.toList q →
      ∃ m, p.regex.matchAt chars.toArray q = some m ∧ m.stop = q + 1 ∧
        Template.expand (names.map .capture) chars.toArray q m =
          [flipped (chars.getD q '0')] := by
    intro q hq
    obtain ⟨m, window, i, hm, hwindow, hname, hcentre⟩ := matchAt_of_flips _ q hbirth hs hbodies hq
    have hcell : chars[q]? = some (chars.getD q '0') := by
      have hlt : q < chars.length := Nat.lt_of_le_of_lt (by omega) hq.below
      simp [hlt]
    refine ⟨m, hregex ▸ hm, hcentre.stop, ?_⟩
    rw [expand_of_matchesCentre _ q (hnames.nodup_iff.mpr rule.nodup_captureNames)
      (hnames.mem_iff.mpr hname) hcentre]
    exact toList_target q hwindow hcell
  have hpass := @substituteFrom_pointwise p.regex (names.map .capture) chars.toArray
    (fun q => rule.Flips s chars q) _ _ hmatch
    (fun q hq => hregex ▸ matchAt_of_not_flips _ q hs hbodies hq) chars 0
    (fun h => by have := h.below; omega)
  have hmap : (chars.mapIdx fun i c =>
      if rule.Flips s chars (0 + i) then flipped (chars.getD (0 + i) '0') else c) =
      chars.mapIdx fun i c => if rule.Flips s chars i then flipped c else c := by
    apply List.ext_getElem?
    intro i
    rw [List.getElem?_mapIdx, List.getElem?_mapIdx]
    cases hc : chars[i]? with
    | none => rfl
    | some c => simp [hc]
  rw [hmap, ← List.range_eq_range'] at hpass
  rw [Pattern.apply, htemplate]
  simp only [substitute]
  rw [hpass]

/-- So does the pass of the rule's own pattern. -/
theorem exists_pattern_apply (rule : Rule) (hbirth : 0 ∉ rule.birth) (hs : 3 ≤ s)
    (hlimit : s < repeatLimit) :
    ∃ p, rule.pattern s = .ok p ∧ ∀ b, p.apply b =
      .ok (String.ofList (b.toList.mapIdx fun i c =>
          if rule.Flips s b.toList i then flipped c else c),
        (List.range b.toList.length).countP fun i => rule.Flips s b.toList i) := by
  obtain ⟨p, hp, hregex, htemplate⟩ := exists_pattern rule hbirth hs hlimit
  exact ⟨p, hp, apply_of_perm hbirth hs (.refl _) (.refl _) hregex htemplate⟩

/-- A pass keeps the length of the buffer, flips the cells at exactly the positions that `Flips`
describes and returns their number. -/
theorem pattern_flips_exactly (rule : Rule) (s : ℕ) (hbirth : 0 ∉ rule.birth) (hs : 3 ≤ s)
    (hlimit : s < repeatLimit) :
    ∃ p, rule.pattern s = .ok p ∧ ∀ b : String, ∃ out,
      p.apply b =
        .ok (out, (List.range b.toList.length).countP fun i => rule.Flips s b.toList i) ∧
      out.toList.length = b.toList.length ∧
      ∀ i c, b.toList[i]? = some c →
        (rule.Flips s b.toList i →
          c = '0' ∧ out.toList[i]? = some '1' ∨ c = '1' ∧ out.toList[i]? = some '0') ∧
        (¬ rule.Flips s b.toList i → out.toList[i]? = some c) := by
  obtain ⟨p, hp, happly⟩ := exists_pattern_apply rule hbirth hs hlimit
  refine ⟨p, hp, fun b => ⟨_, happly b, by simp, ?_⟩⟩
  intro i c hc
  simp only [String.toList_ofList, List.getElem?_mapIdx, hc, Option.map_some]
  refine ⟨fun hflips => ?_, fun hkept => by rw [if_neg hkept]⟩
  have hcentre : i ∈ windowIndices s i := by simp [windowIndices]
  rw [if_pos hflips]
  rcases hflips.binary i hcentre with hcell | hcell
  · obtain rfl := Option.some.inj (hc.symm.trans hcell)
    exact .inl ⟨rfl, rfl⟩
  · obtain rfl := Option.some.inj (hc.symm.trans hcell)
    exact .inr ⟨rfl, rfl⟩

/-- Three live cells above the centre of nine bring it to life. -/
theorem gameOfLife_pattern_flips_centre :
    0 ∉ gameOfLife.birth ∧ 3 ≤ 3 ∧ 3 < repeatLimit ∧
      ∃ p, gameOfLife.pattern (3 : ℕ) = .ok p ∧ ∃ out, p.apply "111000000" = .ok (out, 1) ∧
        out.toList[4]? = some '1' := by
  have hbirth : 0 ∉ gameOfLife.birth := by decide
  have hlimit : 3 < repeatLimit := by decide
  refine ⟨hbirth, Nat.le_refl 3, hlimit, ?_⟩
  obtain ⟨p, hp, hpass⟩ := pattern_flips_exactly gameOfLife 3 hbirth (Nat.le_refl 3) hlimit
  obtain ⟨out, hout, -, hcells⟩ := hpass "111000000"
  have hflips : gameOfLife.Flips 3 "111000000".toList 4 := by decide
  have hcount : ((List.range "111000000".toList.length).countP
      fun i => gameOfLife.Flips 3 "111000000".toList i) = 1 := by decide
  rw [hcount] at hout
  refine ⟨p, hp, out, hout, ?_⟩
  rcases (hcells 4 '0' (by decide)).1 hflips with ⟨-, h⟩ | ⟨h, -⟩
  · exact h
  · cases h

end Rule

end SubstitutionAutomata
