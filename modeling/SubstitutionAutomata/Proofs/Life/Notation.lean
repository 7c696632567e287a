import SubstitutionAutomata.Life.Rule
import Mathlib.Data.List.Basic
import Mathlib.Data.List.Nodup
import Mathlib.Data.List.Perm.Basic
import Mathlib.Data.List.TakeWhile
import Mathlib.Tactic.IntervalCases

/-! # The notation of rules

What a text is read as, whatever it is, and what a reading passes over: components that a later one
with the same letter replaces and, without a slash, what stands before the first S and begins with
no B. Main statement: a rule accounts for the whole of its text exactly if it accounts for what its
reading passes over. -/

namespace SubstitutionAutomata

open Text

/-! ## Counts and their digits -/

namespace CountSet

/-- A set of counts is determined by its members. -/
theorem ext {s t : CountSet} (h : ∀ n, n ∈ s ↔ n ∈ t) : s = t := by
  obtain ⟨l, hl⟩ := s
  obtain ⟨l', hl'⟩ := t
  have hperm : l.Perm l' :=
    (List.perm_ext_iff_of_nodup (hl.imp Int.ne_of_lt) (hl'.imp Int.ne_of_lt)).mpr h
  obtain rfl : l = l' :=
    hperm.eq_of_pairwise (fun a b _ _ hab hba => absurd hab (Int.lt_asymm hba)) hl hl'
  rfl

/-- The members are the digits from 0 to 8 among some characters. -/
def HasDigits (s : CountSet) (digits : List Char) : Prop :=
  ∀ n, n ∈ s ↔ ∃ k : ℕ, k < 9 ∧ n = k ∧ k.digitChar ∈ digits

theorem HasDigits.unique {s t : CountSet} {digits : List Char} (hs : s.HasDigits digits)
    (ht : t.HasDigits digits) : s = t :=
  ext fun n => (hs n).trans (ht n).symm

end CountSet

namespace Rule

theorem isCount_digitChar {k : ℕ} (h : k < 9) : isCount k.digitChar = true := by
  interval_cases k <;> decide

theorem exists_digitChar_of_isCount {c : Char} (h : isCount c = true) :
    ∃ k : ℕ, k < 9 ∧ c = k.digitChar := by
  simp only [isCount, Bool.and_eq_true, decide_eq_true_eq] at h
  have hl : 48 ≤ c.toNat := UInt32.le_iff_toNat_le.mp h.1
  have hu : c.toNat ≤ 56 := UInt32.le_iff_toNat_le.mp h.2
  refine ⟨c.toNat - 48, by omega, Char.toNat_inj.mp ?_⟩
  rw [Nat.toNat_digitChar_of_lt_ten (by omega)]
  omega

theorem toNat_digitChar {k : ℕ} (h : k < 9) :
    (k.digitChar.toNat : Int) - ('0'.toNat : Int) = k := by
  rw [Nat.toNat_digitChar_of_lt_ten (by omega)]
  have hzero : '0'.toNat = 48 := rfl
  omega

theorem hasDigits_counts {digits : List Char} (h : ∀ c ∈ digits, isCount c = true) :
    (counts digits).HasDigits digits := by
  intro n
  rw [counts, CountSet.mem_ofList, List.mem_map]
  constructor
  · rintro ⟨c, hc, rfl⟩
    obtain ⟨k, hk, rfl⟩ := exists_digitChar_of_isCount (h c hc)
    exact ⟨k, hk, toNat_digitChar hk, hc⟩
  · rintro ⟨k, hk, rfl, hmem⟩
    exact ⟨_, hmem, toNat_digitChar hk⟩

/-! ## One reading -/

/-- A text as it is read: in capitals and without spaces. -/
def normalized (s : String) : List Char := (upper s.toList).filter (· ≠ ' ')

/-- The digits of birth and of survival in a text. -/
def digits? (text : List Char) : Except Error (List Char × List Char) :=
  if '/' ∈ text then slashedDigits text (components text) ([], []) else joinedDigits text

theorem parse_eq_bind (s : String) :
    parse s = (digits? (normalized s)).bind fun found =>
      match (found.1 ++ found.2).find? fun c => !isCount c with
      | some c => .error (.count c (String.ofList (normalized s)))
      | none => .ok ⟨counts found.1, counts found.2⟩ := by
  by_cases hslash : '/' ∈ normalized s
  · rw [digits?, if_pos hslash]
    exact if_pos hslash
  · rw [digits?, if_neg hslash]
    exact if_neg hslash

theorem parse_eq_ok_iff (s : String) (r : Rule) :
    parse s = .ok r ↔ ∃ birth survival, digits? (normalized s) = .ok (birth, survival) ∧
      (∀ c ∈ birth ++ survival, isCount c = true) ∧ r = ⟨counts birth, counts survival⟩ := by
  rw [parse_eq_bind]
  cases digits? (normalized s) with
  | error e => simp [Except.bind]
  | ok found =>
      obtain ⟨birth, survival⟩ := found
      simp only [Except.bind, Except.ok.injEq, Prod.mk.injEq]
      cases hfind : (birth ++ survival).find? fun c => !isCount c with
      | some c =>
          refine iff_of_false (fun h => by cases h) ?_
          rintro ⟨_, _, ⟨rfl, rfl⟩, hcounts, -⟩
          have hc := List.find?_some hfind
          simp [hcounts c (List.mem_of_find?_eq_some hfind)] at hc
      | none =>
          have hcounts : ∀ c ∈ birth ++ survival, isCount c = true := by
            simpa using List.find?_eq_none.mp hfind
          constructor
          · intro h
            exact ⟨birth, survival, ⟨rfl, rfl⟩, hcounts, (Except.ok.inj h).symm⟩
          · rintro ⟨_, _, ⟨rfl, rfl⟩, -, rfl⟩
            rfl

theorem components_eq_splitOn (text : List Char) : components text = text.splitOn '/' := by
  induction text with
  | nil => rfl
  | cons c text ih =>
      rw [components, List.splitOn_cons_eq_if_modifyHead, ih]
      by_cases hc : c = '/'
      · simp [hc]
      · rw [if_neg hc, if_neg (by simpa using hc)]
        cases hparts : text.splitOn '/' with
        | nil => exact absurd hparts (List.splitOn_ne_nil _ _)
        | cons part parts => rfl

/-- A slash stands in no component. -/
theorem slash_not_mem_of_mem_components {text part : List Char} (h : part ∈ components text) :
    '/' ∉ part := by
  induction text generalizing part with
  | nil =>
      obtain rfl := List.mem_singleton.mp h
      exact List.not_mem_nil
  | cons c text ih =>
      rw [components] at h
      split at h
      · rcases List.mem_cons.mp h with rfl | h
        · exact List.not_mem_nil
        · exact ih h
      · rename_i hc
        split at h
        · obtain rfl := List.mem_singleton.mp h
          simpa [eq_comm] using hc
        · rename_i first parts hparts
          rw [hparts] at ih
          rcases List.mem_cons.mp h with rfl | h
          · simpa [Ne.symm hc] using ih List.mem_cons_self
          · exact ih (List.mem_cons_of_mem _ h)

theorem two_le_length_components {text : List Char} (h : '/' ∈ text) :
    2 ≤ (components text).length := by
  obtain ⟨before, after, rfl, hbefore⟩ := List.eq_append_cons_of_mem h
  have hafter := List.length_pos_iff.mpr (List.splitOn_ne_nil '/' after)
  rw [components_eq_splitOn, List.splitOn_append_cons_self_of_not_mem hbefore, List.length_cons]
  omega

/-- The digits of the components with a letter, in their order. -/
def digitsAfter (letter : Char) (parts : List (Char × List Char)) : List (List Char) :=
  (parts.filter fun part => part.1 = letter).map Prod.snd

theorem digitsAfter_cons_self (letter : Char) (digits : List Char)
    (parts : List (Char × List Char)) :
    digitsAfter letter ((letter, digits) :: parts) = digits :: digitsAfter letter parts := by
  simp [digitsAfter]

theorem digitsAfter_cons_of_ne {letter other : Char} (h : other ≠ letter) (digits : List Char)
    (parts : List (Char × List Char)) :
    digitsAfter letter ((other, digits) :: parts) = digitsAfter letter parts := by
  simp [digitsAfter, h]

/-- A text, the digits of birth and of survival that are read from it, and what is passed over: of
slashed components with one letter all but the last, and without a slash what stands before the
first S and does not begin with B. -/
inductive Reading : List Char → List Char → List Char → List Char → Prop where
  | slashed (parts : List (Char × List Char)) (hlength : 2 ≤ parts.length)
      (hletter : ∀ part ∈ parts, part.1 = 'B' ∨ part.1 = 'S')
      (hslash : ∀ part ∈ parts, '/' ∉ part.2) :
      Reading (List.intercalate ['/'] (parts.map fun part => part.1 :: part.2))
        ((digitsAfter 'B' parts).getLastD []) ((digitsAfter 'S' parts).getLastD [])
        ((digitsAfter 'B' parts).dropLast.flatten ++ (digitsAfter 'S' parts).dropLast.flatten)
  | birthOnly {birth : List Char} (hslash : '/' ∉ birth) (hletter : 'S' ∉ birth) :
      Reading ('B' :: birth) birth [] []
  | joined {birth survival : List Char} (hslash : '/' ∉ birth ++ survival)
      (hletter : 'S' ∉ birth) : Reading ('B' :: (birth ++ 'S' :: survival)) birth survival []
  | headless {before survival : List Char} (hslash : '/' ∉ before ++ survival)
      (hletter : 'S' ∉ before) (hhead : before.head? ≠ some 'B') :
      Reading (before ++ 'S' :: survival) [] survival before

theorem slashedDigits_map (text : List Char) {parts : List (Char × List Char)}
    (hletter : ∀ part ∈ parts, part.1 = 'B' ∨ part.1 = 'S') (birth survival : List Char) :
    slashedDigits text (parts.map fun part => part.1 :: part.2) (birth, survival) =
      .ok ((digitsAfter 'B' parts).getLastD birth, (digitsAfter 'S' parts).getLastD survival) := by
  induction parts generalizing birth survival with
  | nil => rfl
  | cons part parts ih =>
      obtain ⟨letter, digits⟩ := part
      have hrest := fun part hpart => hletter part (List.mem_cons_of_mem _ hpart)
      rcases hletter _ List.mem_cons_self with rfl | rfl
      all_goals
        rw [List.map_cons, slashedDigits, ih hrest, digitsAfter_cons_self,
          digitsAfter_cons_of_ne (by decide), List.getLastD_cons]

theorem exists_parts_of_slashedDigits {text : List Char} {pieces : List (List Char)}
    {found result : List Char × List Char} (h : slashedDigits text pieces found = .ok result) :
    ∃ parts : List (Char × List Char), (∀ part ∈ parts, part.1 = 'B' ∨ part.1 = 'S') ∧
      pieces = parts.map fun part => part.1 :: part.2 := by
  fun_induction slashedDigits text pieces found with
  | case1 => exact ⟨[], by simp, rfl⟩
  | case2 digits pieces _ _ ih =>
      obtain ⟨parts, hletter, rfl⟩ := ih h
      exact ⟨('B', digits) :: parts, List.forall_mem_cons.mpr ⟨.inl rfl, hletter⟩, rfl⟩
  | case3 digits pieces _ _ ih =>
      obtain ⟨parts, hletter, rfl⟩ := ih h
      exact ⟨('S', digits) :: parts, List.forall_mem_cons.mpr ⟨.inr rfl, hletter⟩, rfl⟩
  | case4 => cases h

/-- A text is cut at its first S. -/
theorem exists_eq_append_of_dropWhile {c : Char} {text rest : List Char}
    (h : text.dropWhile (· ≠ 'S') = c :: rest) :
    ∃ before, text = before ++ 'S' :: rest ∧ 'S' ∉ before := by
  have hstop := List.head?_dropWhile_not (fun c => decide (c ≠ 'S')) text
  rw [h] at hstop
  obtain rfl : c = 'S' := by simpa using hstop
  refine ⟨text.takeWhile (· ≠ 'S'), ?_, fun hmem => ?_⟩
  · rw [← h, List.takeWhile_append_dropWhile]
  · simpa using List.mem_takeWhile_imp hmem

theorem dropWhile_append_cons {before : List Char} (h : 'S' ∉ before) (rest : List Char) :
    (before ++ 'S' :: rest).dropWhile (· ≠ 'S') = 'S' :: rest := by
  rw [List.dropWhile_append_of_pos fun c hc => by simpa using ne_of_mem_of_not_mem hc h,
    List.dropWhile_cons_of_neg (by decide)]

theorem takeWhile_append_cons {before : List Char} (h : 'S' ∉ before) (rest : List Char) :
    (before ++ 'S' :: rest).takeWhile (· ≠ 'S') = before := by
  rw [List.takeWhile_append_of_pos fun c hc => by simpa using ne_of_mem_of_not_mem hc h,
    List.takeWhile_cons_of_neg (by decide), List.append_nil]

theorem joinedDigits_of_head? {c : Char} {text survival : List Char}
    (hhead : text.head? ≠ some 'B') (hdrop : text.dropWhile (· ≠ 'S') = c :: survival) :
    joinedDigits text = .ok ([], survival) := by
  unfold joinedDigits
  rw [hdrop]
  split
  · exact absurd rfl hhead
  · rename_i heq _
    rw [(List.cons.inj heq).2]
  · cases ‹_ :: _ = []›
  · cases ‹_ :: _ = []›

theorem Reading.digits?_eq {text birth survival ignored : List Char}
    (h : Reading text birth survival ignored) : digits? text = .ok (birth, survival) := by
  cases h with
  | slashed parts hlength hletter hslash =>
      have hfree : ∀ part ∈ parts.map fun part => part.1 :: part.2, '/' ∉ part := by
        intro part hpart
        obtain ⟨⟨letter, digits⟩, hmem, rfl⟩ := List.mem_map.mp hpart
        rcases hletter _ hmem with rfl | rfl <;> simpa using hslash _ hmem
      obtain ⟨first, second, parts, rfl⟩ :
          ∃ first second rest, parts = first :: second :: rest := by
        match parts, hlength with
        | first :: second :: rest, _ => exact ⟨first, second, rest, rfl⟩
      rw [digits?, if_pos (by simp [List.intercalate_cons_cons]), components_eq_splitOn,
        List.splitOn_intercalate _ hfree (by simp), slashedDigits_map _ hletter]
  | birthOnly hslash hletter =>
      have hdrop : ('B' :: birth).dropWhile (· ≠ 'S') = [] := by
        rw [List.dropWhile_eq_nil_iff]
        intro c hc
        rcases List.mem_cons.mp hc with rfl | hc
        · decide
        · simpa using ne_of_mem_of_not_mem hc hletter
      rw [digits?, if_neg (by simpa using hslash)]
      simp only [joinedDigits, hdrop]
  | joined hslash hletter =>
      have hfree : 'S' ∉ 'B' :: birth := by simpa using hletter
      have hdrop := dropWhile_append_cons hfree survival
      rw [List.cons_append] at hdrop
      rw [digits?, if_neg (by simpa using hslash)]
      simp only [joinedDigits, hdrop, takeWhile_append_cons hletter]
  | headless hslash hletter hhead =>
      have hdrop := dropWhile_append_cons hletter survival
      rw [digits?, if_neg (by simpa using hslash)]
      exact joinedDigits_of_head? (by cases ignored <;> simp_all) hdrop

/-- What is read without a slash, by whether there is an S and whether a B stands in front. -/
theorem exists_reading_of_joinedDigits {text birth survival : List Char} (hslash : '/' ∉ text)
    (h : joinedDigits text = .ok (birth, survival)) :
    ∃ ignored, Reading text birth survival ignored := by
  unfold joinedDigits at h
  split at h
  · rename_i c survival' rest hdrop
    obtain ⟨rfl, rfl⟩ := Prod.mk.inj (Except.ok.inj h)
    rw [List.dropWhile_cons_of_pos (by decide)] at hdrop
    obtain ⟨before, rfl, hletter⟩ := exists_eq_append_of_dropWhile hdrop
    rw [takeWhile_append_cons hletter]
    exact ⟨_, .joined (by simpa using hslash) hletter⟩
  · rename_i c survival' hhead hdrop
    obtain ⟨rfl, rfl⟩ := Prod.mk.inj (Except.ok.inj h)
    obtain ⟨before, rfl, hletter⟩ := exists_eq_append_of_dropWhile hdrop
    refine ⟨_, .headless (by simpa using hslash) hletter fun hb => ?_⟩
    obtain ⟨rest, rfl⟩ := List.head?_eq_some_iff.mp hb
    exact hhead _ rfl
  · rename_i birth' hdrop
    obtain ⟨rfl, rfl⟩ := Prod.mk.inj (Except.ok.inj h)
    have hletter := List.dropWhile_eq_nil_iff.mp hdrop
    refine ⟨_, .birthOnly (by simpa using hslash) fun hmem => ?_⟩
    simpa using hletter 'S' (List.mem_cons_of_mem _ hmem)
  · cases h

theorem exists_reading {text birth survival : List Char}
    (h : digits? text = .ok (birth, survival)) :
    ∃ ignored, Reading text birth survival ignored := by
  rw [digits?] at h
  by_cases hslash : '/' ∈ text
  · rw [if_pos hslash] at h
    obtain ⟨parts, hletter, hparts⟩ := exists_parts_of_slashedDigits h
    rw [hparts, slashedDigits_map text hletter] at h
    obtain ⟨rfl, rfl⟩ := Prod.mk.inj (Except.ok.inj h)
    have htext : List.intercalate ['/'] (parts.map fun part => part.1 :: part.2) = text := by
      rw [← hparts, components_eq_splitOn, List.intercalate_splitOn]
    have hlength : 2 ≤ parts.length := by
      have htwo := two_le_length_components hslash
      rwa [hparts, List.length_map] at htwo
    have hfree : ∀ part ∈ parts, '/' ∉ part.2 := by
      intro part hpart hmem
      have hcomponent : part.1 :: part.2 ∈ components text := by
        rw [hparts]
        exact List.mem_map_of_mem hpart
      exact slash_not_mem_of_mem_components hcomponent (List.mem_cons_of_mem _ hmem)
    have hreading := Reading.slashed parts hlength hletter hfree
    rw [htext] at hreading
    exact ⟨_, hreading⟩
  · rw [if_neg hslash] at h
    exact exists_reading_of_joinedDigits hslash h

theorem parse_of_reading {birth survival ignored : List Char} {s : String}
    (h : Reading (normalized s) birth survival ignored)
    (hcounts : ∀ c ∈ birth ++ survival, isCount c = true) :
    parse s = .ok ⟨counts birth, counts survival⟩ :=
  (parse_eq_ok_iff s _).mpr ⟨birth, survival, h.digits?_eq, hcounts, rfl⟩

/-! ## What a reading passes over -/

/-- Every character is a letter or slash of the notation or a count of the rule. -/
def Accounts (r : Rule) (text : List Char) : Prop :=
  ∀ c ∈ text, c = 'B' ∨ c = 'S' ∨ c = '/' ∨
    ∃ k : ℕ, k < 9 ∧ c = k.digitChar ∧ ((k : Int) ∈ r.birth ∨ (k : Int) ∈ r.survival)

theorem mem_of_mem_intercalate {pieces : List (List Char)} {c : Char}
    (h : c ∈ List.intercalate ['/'] pieces) : c = '/' ∨ ∃ piece ∈ pieces, c ∈ piece := by
  induction pieces with
  | nil => simp at h
  | cons piece pieces ih =>
      by_cases hnil : pieces = []
      · subst hnil
        rw [List.intercalate_singleton] at h
        exact .inr ⟨piece, List.mem_cons_self, h⟩
      · rw [List.intercalate_cons_of_ne_nil hnil, List.mem_append, List.mem_append,
          List.mem_singleton] at h
        rcases h with (h | rfl) | h
        · exact .inr ⟨piece, List.mem_cons_self, h⟩
        · exact .inl rfl
        · rcases ih h with rfl | ⟨piece', hmem, hc⟩
          · exact .inl rfl
          · exact .inr ⟨piece', List.mem_cons_of_mem _ hmem, hc⟩

theorem mem_intercalate_of_mem {pieces : List (List Char)} {piece : List Char} {c : Char}
    (hpiece : piece ∈ pieces) (hc : c ∈ piece) : c ∈ List.intercalate ['/'] pieces := by
  induction pieces with
  | nil => cases hpiece
  | cons first pieces ih =>
      by_cases hnil : pieces = []
      · subst hnil
        rw [List.intercalate_singleton]
        rwa [List.mem_singleton.mp hpiece] at hc
      · rw [List.intercalate_cons_of_ne_nil hnil, List.mem_append]
        rcases List.mem_cons.mp hpiece with rfl | hpiece
        · exact .inl (List.mem_append_left _ hc)
        · exact .inr (ih hpiece)

theorem mem_digitsAfter_iff {letter : Char} {digits : List Char}
    {parts : List (Char × List Char)} :
    digits ∈ digitsAfter letter parts ↔ (letter, digits) ∈ parts := by
  simp only [digitsAfter, List.mem_map, List.mem_filter, decide_eq_true_eq]
  constructor
  · rintro ⟨⟨_, _⟩, ⟨hmem, rfl⟩, rfl⟩
    exact hmem
  · exact fun hmem => ⟨_, ⟨hmem, rfl⟩, rfl⟩

/-- A character of some pieces stands in the last one or in one before it. -/
theorem mem_getLastD_or_mem_dropLast {pieces : List (List Char)} {piece : List Char} {c : Char}
    (hpiece : piece ∈ pieces) (hc : c ∈ piece) :
    c ∈ pieces.getLastD [] ∨ c ∈ pieces.dropLast.flatten := by
  by_cases hlast : piece = pieces.getLastD []
  · exact .inl (hlast ▸ hc)
  · have hbefore := List.mem_dropLast_of_mem_of_ne_getLastD hpiece hlast
    exact .inr (List.mem_flatten.mpr ⟨piece, hbefore, hc⟩)

/-- A character of a text is a letter or a slash, or read as a digit, or passed over. -/
theorem Reading.mem_text {text birth survival ignored : List Char}
    (h : Reading text birth survival ignored) {c : Char} (hc : c ∈ text) :
    c = 'B' ∨ c = 'S' ∨ c = '/' ∨ c ∈ birth ++ survival ∨ c ∈ ignored := by
  cases h with
  | slashed parts hlength hletter hslash =>
      rcases mem_of_mem_intercalate hc with rfl | ⟨_, hpiece, hc⟩
      · simp
      obtain ⟨⟨letter, digits⟩, hpart, rfl⟩ := List.mem_map.mp hpiece
      have hread := fun hc : c ∈ digits =>
        mem_getLastD_or_mem_dropLast (mem_digitsAfter_iff.mpr hpart) hc
      rcases hletter _ hpart with rfl | rfl
      all_goals
        rcases List.mem_cons.mp hc with rfl | hc
        · simp
        · rcases hread hc with hc | hc <;> simp only [List.mem_append, hc, true_or, or_true]
  | birthOnly => grind
  | joined => grind
  | headless => grind

theorem Reading.mem_of_mem_ignored {text birth survival ignored : List Char}
    (h : Reading text birth survival ignored) {c : Char} (hc : c ∈ ignored) : c ∈ text := by
  cases h with
  | slashed parts hlength hletter hslash =>
      have hpart : ∃ part ∈ parts, c ∈ part.2 := by
        rcases List.mem_append.mp hc with hc | hc
        all_goals
          obtain ⟨digits, hbefore, hc⟩ := List.mem_flatten.mp hc
          exact ⟨_, mem_digitsAfter_iff.mp (List.dropLast_subset _ hbefore), hc⟩
      obtain ⟨part, hpart, hc⟩ := hpart
      exact mem_intercalate_of_mem (List.mem_map_of_mem hpart) (List.mem_cons_of_mem _ hc)
  | birthOnly => cases hc
  | joined => cases hc
  | headless => exact List.mem_append_left _ hc

/-- A text has one reading, up to what it passes over. -/
theorem Reading.unique {text birth survival ignored birth' survival' ignored' : List Char}
    (h : Reading text birth survival ignored) (h' : Reading text birth' survival' ignored') :
    birth = birth' ∧ survival = survival' := by
  have heq := h.digits?_eq.symm.trans h'.digits?_eq
  exact Prod.mk.inj (Except.ok.inj heq)

theorem parse_eq_ok_iff_reading (s : String) (r : Rule) :
    parse s = .ok r ↔ ∃ birth survival ignored, Reading (normalized s) birth survival ignored ∧
      (∀ c ∈ birth ++ survival, isCount c = true) ∧
      r.birth.HasDigits birth ∧ r.survival.HasDigits survival := by
  constructor
  · intro h
    obtain ⟨birth, survival, hdigits, hcounts, rfl⟩ := (parse_eq_ok_iff s r).mp h
    obtain ⟨ignored, hreading⟩ := exists_reading hdigits
    obtain ⟨hbirth, hsurvival⟩ := List.forall_mem_append.mp hcounts
    exact ⟨birth, survival, ignored, hreading, hcounts, hasDigits_counts hbirth,
      hasDigits_counts hsurvival⟩
  · rintro ⟨birth, survival, ignored, hreading, hcounts, hb, hs⟩
    obtain ⟨hbirth, hsurvival⟩ := List.forall_mem_append.mp hcounts
    rw [parse_of_reading hreading hcounts, (hasDigits_counts hbirth).unique hb,
      (hasDigits_counts hsurvival).unique hs]

theorem accounts_iff_ignored {text birth survival ignored : List Char} {r : Rule}
    (h : Reading text birth survival ignored) (hcounts : ∀ c ∈ birth ++ survival, isCount c = true)
    (hbirth : r.birth.HasDigits birth) (hsurvival : r.survival.HasDigits survival) :
    r.Accounts text ↔ r.Accounts ignored := by
  refine ⟨fun haccounts c hc => haccounts c (h.mem_of_mem_ignored hc), fun haccounts c hc => ?_⟩
  rcases h.mem_text hc with hc | hc | hc | hc | hc
  · exact .inl hc
  · exact .inr (.inl hc)
  · exact .inr (.inr (.inl hc))
  · obtain ⟨k, hk, rfl⟩ := exists_digitChar_of_isCount (hcounts c hc)
    refine .inr (.inr (.inr ⟨k, hk, rfl, ?_⟩))
    rcases List.mem_append.mp hc with hc | hc
    · exact .inl ((hbirth k).mpr ⟨k, hk, rfl, hc⟩)
    · exact .inr ((hsurvival k).mpr ⟨k, hk, rfl, hc⟩)
  · exact haccounts c hc

/-- A text is read exactly if it has a reading in which every digit is a count, and then as the rule
of these counts; every other text is refused. The rule accounts for the whole text exactly if it
accounts for what the reading passes over. -/
theorem reading_accounts_for_text (s : String) :
    (∀ r, parse s = .ok r ↔ ∃ birth survival ignored,
        Reading (normalized s) birth survival ignored ∧
        (∀ c ∈ birth ++ survival, isCount c = true) ∧
        r.birth.HasDigits birth ∧ r.survival.HasDigits survival) ∧
      ((∃ e, parse s = .error e) ↔ ∀ birth survival ignored,
        Reading (normalized s) birth survival ignored →
          ∃ c ∈ birth ++ survival, isCount c = false) ∧
      ∀ r birth survival ignored, parse s = .ok r →
        Reading (normalized s) birth survival ignored →
          (r.Accounts (normalized s) ↔ r.Accounts ignored) := by
  have hread := parse_eq_ok_iff_reading s
  refine ⟨hread, ⟨?_, fun h => ?_⟩, fun r birth survival ignored hparse h => ?_⟩
  · rintro ⟨e, he⟩ birth survival ignored h
    by_contra hnone
    have hcounts : ∀ c ∈ birth ++ survival, isCount c = true := by simpa using hnone
    rw [parse_of_reading h hcounts] at he
    cases he
  · cases hparse : parse s with
    | error e => exact ⟨e, rfl⟩
    | ok r =>
        obtain ⟨_, _, _, hreading, hcounts, -⟩ := (hread r).mp hparse
        obtain ⟨c, hc, hcount⟩ := h _ _ _ hreading
        rw [hcounts c hc] at hcount
        cases hcount
  · obtain ⟨_, _, _, hreading, hcounts, hbirth, hsurvival⟩ := (hread r).mp hparse
    obtain ⟨rfl, rfl⟩ := hreading.unique h
    exact accounts_iff_ignored h hcounts hbirth hsurvival

/-- Of two components with B the later counts, and here it repeats what the earlier says. -/
theorem reading_accounts_for_text_repeated :
    parse "B3/S23/B36" = .ok highLife ∧
      Reading (normalized "B3/S23/B36") ['3', '6'] ['2', '3'] ['3'] ∧
      highLife.Accounts (normalized "B3/S23/B36") := by
  have hparse : parse "B3/S23/B36" = .ok highLife := by decide
  have hnormalized : normalized "B3/S23/B36" =
      ['B', '3', '/', 'S', '2', '3', '/', 'B', '3', '6'] := by decide
  have hreading : Reading (normalized "B3/S23/B36") ['3', '6'] ['2', '3'] ['3'] := by
    rw [hnormalized]
    exact .slashed [('B', ['3']), ('S', ['2', '3']), ('B', ['3', '6'])] (by decide) (by simp)
      (by simp)
  obtain ⟨-, -, haccounts⟩ := reading_accounts_for_text "B3/S23/B36"
  refine ⟨hparse, hreading, (haccounts _ _ _ _ hparse hreading).mpr fun c hc => ?_⟩
  obtain rfl := List.mem_singleton.mp hc
  exact .inr (.inr (.inr ⟨3, by decide, rfl, .inl (by decide)⟩))

/-- Without a slash what stands before the first S and begins with no B is dropped, and with one a
component that a later one replaces. -/
theorem reading_drops_input :
    parse "X3S23" = .ok ⟨.empty, .ofList [2, 3]⟩ ∧
      ¬ Accounts ⟨.empty, .ofList [2, 3]⟩ (normalized "X3S23") ∧
      parse "B3/B2" = .ok ⟨.ofList [2], .empty⟩ ∧
      ¬ Accounts ⟨.ofList [2], .empty⟩ (normalized "B3/B2") := by
  refine ⟨by decide, fun h => ?_, by decide, fun h => ?_⟩
  · rcases h 'X' (by decide) with hc | hc | hc | ⟨k, hk, hc, -⟩
    · cases hc
    · cases hc
    · cases hc
    · interval_cases k <;> cases hc
  · rcases h '3' (by decide) with hc | hc | hc | ⟨k, hk, hc, hmem⟩
    · cases hc
    · cases hc
    · cases hc
    · obtain rfl : k = 3 := by interval_cases k <;> first | rfl | cases hc
      revert hmem
      decide

end Rule

end SubstitutionAutomata
