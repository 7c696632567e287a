import SubstitutionAutomata.Proofs.Life.Notation

/-! # Spellings of rules

The ways to write a rule, its own text among them. Main statement: a rule is read from every
spelling of its counts, so that rules are told apart by their texts. -/

namespace SubstitutionAutomata

open Text

namespace Rule

/-! ## Spellings -/

/-- The ways to write digits of birth and of survival. -/
inductive Spelling (birth survival : List Char) : List Char → Prop where
  | birthFirst : Spelling birth survival ('B' :: (birth ++ '/' :: 'S' :: survival))
  | survivalFirst : Spelling birth survival ('S' :: (survival ++ '/' :: 'B' :: birth))
  | joined : Spelling birth survival ('B' :: (birth ++ 'S' :: survival))

/-- A spelling is read with nothing passed over. -/
theorem Spelling.reading {birth survival text : List Char} (h : Spelling birth survival text)
    (hbirth : ∀ c ∈ birth, isCount c = true) (hsurvival : ∀ c ∈ survival, isCount c = true) :
    Reading text birth survival [] := by
  have hslash : ∀ {digits : List Char}, (∀ c ∈ digits, isCount c = true) → '/' ∉ digits :=
    fun hdigits hmem => absurd (hdigits '/' hmem) (by decide)
  have hb := hslash hbirth
  have hs := hslash hsurvival
  cases h with
  | birthFirst =>
      have hreading := Reading.slashed [('B', birth), ('S', survival)] (Nat.le_refl 2)
        (by simp) (by simp [hb, hs])
      simpa [digitsAfter] using hreading
  | survivalFirst =>
      have hreading := Reading.slashed [('S', survival), ('B', birth)] (Nat.le_refl 2)
        (by simp) (by simp [hb, hs])
      simpa [digitsAfter] using hreading
  | joined =>
      refine .joined (by simp [hb, hs]) fun hmem => ?_
      exact absurd (hbirth 'S' hmem) (by decide)

/-! ## The text of a rule -/

/-- The counts are numbers of neighbours that a cell can have. -/
structure Feasible (r : Rule) : Prop where
  birth : ∀ n ∈ r.birth, 0 ≤ n ∧ n ≤ 8
  survival : ∀ n ∈ r.survival, 0 ≤ n ∧ n ≤ 8

end Rule

namespace CountSet

variable {s : CountSet}

def digits (s : CountSet) : List Char := s.toList.map fun n => n.toNat.digitChar

theorem toList_join_toString (h : ∀ n ∈ s, 0 ≤ n ∧ n ≤ 8) :
    (String.join (s.toList.map toString)).toList = s.digits := by
  rw [String.toList_join, List.flatMap_map, digits, List.map_eq_flatMap]
  refine List.flatMap_congr fun n hn => ?_
  obtain ⟨hl, hu⟩ := h n hn
  interval_cases n <;> rfl

theorem isCount_of_mem_digits (h : ∀ n ∈ s, 0 ≤ n ∧ n ≤ 8) :
    ∀ c ∈ s.digits, Rule.isCount c = true := by
  intro c hc
  obtain ⟨n, hn, rfl⟩ := List.mem_map.mp hc
  have hbounds := h n hn
  exact Rule.isCount_digitChar (by omega)

theorem hasDigits_digits (h : ∀ n ∈ s, 0 ≤ n ∧ n ≤ 8) : s.HasDigits s.digits := by
  intro n
  constructor
  · intro hn
    have hbounds := h n hn
    exact ⟨n.toNat, by omega, by omega, List.mem_map.mpr ⟨n, hn, rfl⟩⟩
  · rintro ⟨k, hk, rfl, hmem⟩
    obtain ⟨m, hm, hdigit⟩ := List.mem_map.mp hmem
    have hbounds := h m hm
    have hcode := congrArg Char.toNat hdigit
    rw [Nat.toNat_digitChar_of_lt_ten (by omega), Nat.toNat_digitChar_of_lt_ten (by omega)] at hcode
    obtain rfl : m = k := by omega
    exact hm

end CountSet

namespace Rule

variable {r r' : Rule}

theorem toList_text (h : r.Feasible) :
    r.text.toList = 'B' :: (r.birth.digits ++ '/' :: 'S' :: r.survival.digits) := by
  change ("B" ++ String.join (r.birth.toList.map toString) ++ "/S" ++
    String.join (r.survival.toList.map toString)).toList = _
  simp [CountSet.toList_join_toString h.birth, CountSet.toList_join_toString h.survival]

/-- A text of capitals and digits without spaces is read as it stands. -/
theorem normalized_eq {s : String} (h : ∀ c ∈ s.toList, capital c = [c] ∧ c ≠ ' ') :
    normalized s = s.toList := by
  have hupper : upper s.toList = s.toList := by
    rw [upper, List.flatMap_congr fun c hc => (h c hc).1]
    simp
  rw [normalized, hupper, List.filter_eq_self]
  exact fun c hc => by simpa using (h c hc).2

theorem capital_of_isCount {c : Char} (h : isCount c = true) : capital c = [c] ∧ c ≠ ' ' := by
  obtain ⟨k, hk, rfl⟩ := exists_digitChar_of_isCount h
  interval_cases k <;> decide

theorem normalized_text (h : r.Feasible) : normalized r.text = r.text.toList := by
  apply normalized_eq
  have hbirth := CountSet.isCount_of_mem_digits h.birth
  have hsurvival := CountSet.isCount_of_mem_digits h.survival
  rw [toList_text h]
  simp only [List.forall_mem_cons, List.forall_mem_append]
  exact ⟨by decide, fun c hc => capital_of_isCount (hbirth c hc), by decide, by decide,
    fun c hc => capital_of_isCount (hsurvival c hc)⟩

/-- A rule is read back from its text. -/
theorem parse_text (h : r.Feasible) : parse r.text = .ok r := by
  have hbirth := CountSet.isCount_of_mem_digits h.birth
  have hsurvival := CountSet.isCount_of_mem_digits h.survival
  have hreading := Spelling.birthFirst.reading hbirth hsurvival
  rw [← toList_text h, ← normalized_text h] at hreading
  rw [parse_of_reading hreading (List.forall_mem_append.mpr ⟨hbirth, hsurvival⟩),
    (hasDigits_counts hbirth).unique (CountSet.hasDigits_digits h.birth),
    (hasDigits_counts hsurvival).unique (CountSet.hasDigits_digits h.survival)]

/-- Every spelling of some counts is read as the rule of these counts. A rule is read back from its
text, so that rules are equal exactly if their texts are. -/
theorem spellings_round_trip :
    (∀ (birth survival : List Char) (s : String), (∀ c ∈ birth, isCount c = true) →
      (∀ c ∈ survival, isCount c = true) → Spelling birth survival (normalized s) →
        ∃ r, parse s = .ok r ∧ r.birth.HasDigits birth ∧ r.survival.HasDigits survival) ∧
      (∀ r : Rule, r.Feasible → parse r.text = .ok r) ∧
      ∀ r r' : Rule, r.Feasible → r'.Feasible → (r = r' ↔ r.text = r'.text) := by
  refine ⟨?_, fun r h => parse_text h, ?_⟩
  · intro birth survival s hbirth hsurvival h
    have hcounts := List.forall_mem_append.mpr ⟨hbirth, hsurvival⟩
    exact ⟨_, parse_of_reading (h.reading hbirth hsurvival) hcounts, hasDigits_counts hbirth,
      hasDigits_counts hsurvival⟩
  · intro r r' h h'
    refine ⟨congrArg text, fun heq => ?_⟩
    have hread := parse_text h
    rw [heq, parse_text h'] at hread
    exact (Except.ok.inj hread).symm

/-- A spelling in small letters with spaces, and the texts of two rules. -/
theorem spellings_round_trip_highLife :
    Spelling ['6', '3', '3'] ['3', '2'] (normalized "s3 2/ b633") ∧
      (∃ r, parse "s3 2/ b633" = .ok r ∧ r.birth.HasDigits ['6', '3', '3'] ∧
        r.survival.HasDigits ['3', '2']) ∧
      highLife.Feasible ∧ parse highLife.text = .ok highLife ∧ seeds.Feasible ∧
      (highLife = seeds ↔ highLife.text = seeds.text) := by
  obtain ⟨hread, hback, htexts⟩ := spellings_round_trip
  have hspelling : Spelling ['6', '3', '3'] ['3', '2'] (normalized "s3 2/ b633") := by
    have hnormalized : normalized "s3 2/ b633" = ['S', '3', '2', '/', 'B', '6', '3', '3'] := by
      decide
    rw [hnormalized]
    exact .survivalFirst
  have hhigh : highLife.Feasible := ⟨by decide, by decide⟩
  have hseeds : seeds.Feasible := ⟨by decide, by decide⟩
  exact ⟨hspelling, hread _ _ _ (List.all_eq_true.mp rfl) (List.all_eq_true.mp rfl) hspelling,
    hhigh, hback _ hhigh, hseeds, htexts _ _ hhigh hseeds⟩

end Rule

end SubstitutionAutomata
