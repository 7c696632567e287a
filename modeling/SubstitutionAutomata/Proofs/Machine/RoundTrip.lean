import SubstitutionAutomata.Proofs.Machine.Decode

/-! # Buffers and head records

A buffer with one head record is the buffer of the configuration that it reads back as. The records
of a text are counted by rules that do not refer to the reader. -/

namespace SubstitutionAutomata

open Text

/-- A whole head record: all states and symbols, a state, and a character that is no line feed. -/
def Definition.IsRecord (d : Definition) (r : List Char) : Prop :=
  ∃ (state : String) (x : Char), IsState state ∧ x ≠ '\n' ∧ r = recordText d state.toList [x]

/-- A text holds so many head records from left to right, no two of which overlap: a character is
passed over only if no record starts with it. -/
inductive Definition.Occurrences (d : Definition) : List Char → ℕ → Prop where
  | nil : Occurrences d [] 0
  | pass {c : Char} {s : List Char} {n : ℕ} (h : ∀ r, d.IsRecord r → ¬ r <+: c :: s)
      (rest : Occurrences d s n) : Occurrences d (c :: s) n
  | record {r s : List Char} {n : ℕ} (h : d.IsRecord r) (rest : Occurrences d s n) :
      Occurrences d (r ++ s) (n + 1)

theorem Definition.IsRecord.ne_nil {d : Definition} {r : List Char} (h : d.IsRecord r) :
    r ≠ [] := by
  obtain ⟨state, x, -, -, rfl⟩ := h
  exact List.cons_ne_nil _ _

namespace Tape

variable {tape : Tape}

/-! ## Single records -/

theorem recordAt?_recordText {state : String} (hstate : IsState state) {x : Char} (hx : x ≠ '\n')
    (s : List Char) :
    recordAt? tape.recordStart.toList (recordText tape.definition state.toList [x] ++ s) =
      some (state.toList, x, s) := by
  obtain ⟨digits, hdigits, hne, hall⟩ := hstate
  rw [hdigits, ← recordAt?_append tape.recordStart.toList digits s x hne hall hx,
    toList_recordStart]
  simp [recordText]

theorem eq_recordText_of_recordAt? {state s after : List Char} {x : Char}
    (h : recordAt? tape.recordStart.toList s = some (state, x, after)) :
    tape.definition.IsRecord (recordText tape.definition state [x]) ∧
      s = recordText tape.definition state [x] ++ after := by
  obtain ⟨hstate, hx, rfl⟩ := recordAt?_spec h
  refine ⟨⟨_, x, hstate, hx, by rw [String.toList_ofList]⟩, ?_⟩
  rw [toList_recordStart]
  simp [recordText]

theorem recordAt?_eq_none_iff (s : List Char) :
    recordAt? tape.recordStart.toList s = none ↔
      ∀ r, tape.definition.IsRecord r → ¬ r <+: s := by
  constructor
  · rintro h r ⟨state, x, hstate, hx, rfl⟩ ⟨after, rfl⟩
    rw [recordAt?_recordText hstate hx] at h
    cases h
  · intro h
    rw [Option.eq_none_iff_forall_ne_some]
    rintro ⟨state, x, after⟩ hrecord
    obtain ⟨hr, rfl⟩ := eq_recordText_of_recordAt? hrecord
    exact h _ hr (List.prefix_append _ _)

/-! ## All records -/

/-- A record that is read stands in the text between the two sides of its configuration. -/
theorem text_of_mem_records {c : Configuration} (before : List Char) (skip : ℕ) (s : List Char)
    (h : c ∈ records tape.recordStart.toList before skip s) :
    c.text tape.definition = before.reverse ++ s := by
  induction s generalizing before skip with
  | nil => cases skip <;> cases h
  | cons y s ih =>
      cases skip with
      | succ skip =>
          rw [records] at h
          rw [ih _ _ h]
          simp
      | zero =>
          rw [records] at h
          cases hrecord : recordAt? tape.recordStart.toList (y :: s) with
          | none =>
              rw [hrecord] at h
              rw [ih _ _ h]
              simp
          | some found =>
              obtain ⟨state, x, after⟩ := found
              rw [hrecord] at h
              rcases List.mem_cons.mp h with rfl | h
              · rw [(eq_recordText_of_recordAt? hrecord).2]
                simp [Configuration.text, Char.toString]
              · rw [ih _ _ h]
                simp

/-- The reader finds as many records as there are. -/
theorem length_records {s : List Char} {n : ℕ} (h : tape.definition.Occurrences s n)
    (before : List Char) :
    (records tape.recordStart.toList before 0 s).length = n := by
  induction h generalizing before with
  | nil => rfl
  | pass h _ ih => rw [records, (recordAt?_eq_none_iff _).mpr h, ih]
  | @record r s n h _ ih =>
      obtain ⟨state, x, hstate, hx, rfl⟩ := h
      have hrecord := @recordAt?_recordText tape _ hstate _ hx s
      obtain ⟨inner, hinner⟩ :
          ∃ inner, recordText tape.definition state.toList [x] = headMark :: inner :=
        ⟨_, rfl⟩
      rw [hinner, List.cons_append] at hrecord ⊢
      have hskip : (inner ++ s).length - s.length = inner.length := by simp
      rw [records, hrecord]
      simp only [hskip, records_append_skip, List.length_cons, ih]

end Tape

theorem Definition.exists_occurrences (d : Definition) (s : List Char) :
    ∃ n, d.Occurrences s n := by
  induction h : s.length using Nat.strong_induction_on generalizing s with
  | _ k ih =>
      subst h
      by_cases hrecord : ∃ r, d.IsRecord r ∧ r <+: s
      · obtain ⟨r, hr, rest, rfl⟩ := hrecord
        have hpos := List.length_pos_iff.mpr hr.ne_nil
        obtain ⟨n, hn⟩ := ih rest.length (by simp; omega) rest rfl
        exact ⟨n + 1, .record hr hn⟩
      · cases s with
        | nil => exact ⟨0, .nil⟩
        | cons c s =>
            obtain ⟨n, hn⟩ := ih s.length (by simp) s rfl
            exact ⟨n, .pass (fun r hr hprefix => hrecord ⟨r, hr, hprefix⟩) hn⟩

theorem Tape.occurrences_iff (tape : Tape) (s : List Char) (n : ℕ) :
    tape.definition.Occurrences s n ↔ (records tape.recordStart.toList [] 0 s).length = n := by
  refine ⟨fun h => length_records h [], ?_⟩
  rintro rfl
  obtain ⟨n, hn⟩ := tape.definition.exists_occurrences s
  rwa [length_records hn]

/-- A configuration without marks on its tape and without a line feed under its head is read back
from its buffer. A buffer that reads back is the buffer of what it reads back as. A buffer holds
one number of head records, and it is refused with this number exactly if it is not 1. -/
theorem Tape.head_records_round_trip (tape : Tape) :
    (∀ c : Configuration, c.WellFormed → c.cursor ≠ "\n" →
      tape.decode (tape.encodeHead c) = .ok c) ∧
      (∀ (buffer : String) (c : Configuration), tape.decode buffer = .ok c →
        tape.encodeHead c = buffer) ∧
      ∀ buffer : String, ∃ n, (∀ m, tape.definition.Occurrences buffer.toList m ↔ m = n) ∧
        ∀ e, tape.decode buffer = .error e ↔ n ≠ 1 ∧ e = .headCount n := by
  refine ⟨fun c => tape.decode_encodeHead, fun buffer c h => ?_, fun buffer => ?_⟩
  · rw [decode] at h
    split at h
    · rename_i found hfound
      obtain rfl := Except.ok.inj h
      have htext := text_of_mem_records [] 0 buffer.toList (hfound ▸ List.mem_singleton_self found)
      rw [← String.toList_inj, Configuration.toList_encodeHead, htext]
      rfl
    · cases h
  · refine ⟨_, fun m => (tape.occurrences_iff buffer.toList m).trans eq_comm, fun e => ?_⟩
    rw [decode]
    split
    · rename_i found hfound
      simp [hfound]
    · rename_i hcount
      have hne : (records tape.recordStart.toList [] 0 buffer.toList).length ≠ 1 := by
        intro hone
        obtain ⟨found, hfound⟩ := List.length_eq_one_iff.mp hone
        exact hcount found hfound
      constructor
      · intro h
        exact ⟨hne, (Except.error.inj h).symm⟩
      · rintro ⟨-, rfl⟩
        rfl

/-- A mark may be under the head, and half a record may stand beside it. -/
theorem Tape.head_records_round_trip_mark :
    ∃ (tape : Tape) (c : Configuration), c.WellFormed ∧ c.cursor ≠ "\n" ∧
      tape.encodeHead c = "Q1:ab-Q0:a#Q0Q1:ab-Q27:##Q1:ab" ∧
      tape.decode "Q1:ab-Q0:a#Q0Q1:ab-Q27:##Q1:ab" = .ok c := by
  let d : Definition :=
    ⟨["Q0:a/b->R:Q1"], [⟨"Q0", "a", "b", .right, "Q1"⟩], [], List.cons_ne_nil _ _⟩
  let tape : Tape := ⟨d, 0, defaultEmptySymbol⟩
  let c : Configuration := ⟨"Q1:ab-Q0:a", "Q27", "#", "Q1:ab"⟩
  have hdigits : ∀ c ∈ ['2', '7'], isDigit c = true := by
    simp [isDigit_of_ascii '2' (by decide), isDigit_of_ascii '7' (by decide)]
  have hc : c.WellFormed :=
    ⟨by decide, by decide, ⟨['2', '7'], by decide, by decide, hdigits⟩, '#', rfl⟩
  have hcursor : c.cursor ≠ "\n" := by decide
  have hencode : tape.encodeHead c = "Q1:ab-Q0:a#Q0Q1:ab-Q27:##Q1:ab" := by decide
  have hround := (head_records_round_trip tape).1 c hc hcursor
  rw [hencode] at hround
  exact ⟨tape, c, hc, hcursor, hencode, hround⟩

end SubstitutionAutomata
