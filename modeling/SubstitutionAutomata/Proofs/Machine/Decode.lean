import SubstitutionAutomata.Proofs.Machine.Record

/-! # Reading a head record back

The buffer of a configuration reads back as the configuration, unless a line feed is under the head
or another record ends to its right. -/

namespace SubstitutionAutomata

open Text

namespace Tape

theorem afterStart?_append (start s : List Char) : afterStart? start (start ++ s) = some s := by
  induction start with
  | nil => cases s <;> rfl
  | cons x start ih => simp [afterStart?, ih]

theorem recordAt?_of_ne {x : Char} (start s : List Char) {y : Char} (h : y ≠ x) :
    recordAt? (x :: start) (y :: s) = none := by
  simp [recordAt?, afterStart?, Ne.symm h]

theorem recordAt?_append (start digits right : List Char) (x : Char) (hne : digits ≠ [])
    (hdigits : ∀ c ∈ digits, isDigit c = true) (hx : x ≠ '\n') :
    recordAt? start (start ++ 'Q' :: (digits ++ ':' :: x :: headMark :: right)) =
      some ('Q' :: digits, x, right) := by
  have htake : (digits ++ ':' :: x :: headMark :: right).takeWhile isDigit = digits := by
    rw [List.takeWhile_append_of_pos hdigits, List.takeWhile_cons_of_neg, List.append_nil]
    simp [not_isDigit_colon]
  have hdrop : (digits ++ ':' :: x :: headMark :: right).dropWhile isDigit =
      ':' :: x :: headMark :: right := by
    rw [List.dropWhile_append_of_pos hdigits, List.dropWhile_cons_of_neg]
    simp [not_isDigit_colon]
  simp [recordAt?, afterStart?_append, htake, hdrop, hne, hx]

theorem eq_append_of_afterStart? {start s rest : List Char} (h : afterStart? start s = some rest) :
    s = start ++ rest := by
  induction start generalizing s with
  | nil =>
      rw [afterStart?] at h
      rw [Option.some.inj h, List.nil_append]
  | cons x start ih =>
      cases s with
      | nil => cases h
      | cons y s =>
          rw [afterStart?] at h
          split at h
          · rename_i heq
            rw [heq, ih h, List.cons_append]
          · cases h

/-- What is read as a record is one: a start, a state, a character and a mark. -/
theorem recordAt?_spec {start s state after : List Char} {x : Char}
    (h : recordAt? start s = some (state, x, after)) :
    IsState (String.ofList state) ∧ x ≠ '\n' ∧
      s = start ++ (state ++ ':' :: x :: headMark :: after) := by
  unfold recordAt? at h
  split at h
  · rename_i rest hstart
    dsimp only at h
    split at h
    · rename_i cursor mark after' hrest
      split at h
      · rename_i hvalid
        simp only [Bool.and_eq_true, Bool.not_eq_true', List.isEmpty_eq_false_iff,
          decide_eq_true_eq] at hvalid
        obtain ⟨⟨hdigits, hfeed⟩, hmark⟩ := hvalid
        simp only [Option.some.injEq, Prod.mk.injEq] at h
        obtain ⟨rfl, rfl, rfl⟩ := h
        refine ⟨⟨_, String.toList_ofList, hdigits, fun c hc => List.mem_takeWhile_imp hc⟩,
          hfeed, ?_⟩
        rw [eq_append_of_afterStart? hstart, ← hmark, ← hrest, List.cons_append,
          List.takeWhile_append_dropWhile]
      · cases h
    · cases h
  · cases h

variable (start : List Char)

theorem records_append_of_not_mem (x : Char) (before left rest : List Char) (h : x ∉ left) :
    records (x :: start) before 0 (left ++ rest) =
      records (x :: start) (left.reverse ++ before) 0 rest := by
  induction left generalizing before with
  | nil => rfl
  | cons y left ih =>
      have hne : y ≠ x := fun he => h (by simp [he])
      rw [List.cons_append, records, recordAt?_of_ne start _ hne,
        ih _ fun hmem => h (List.mem_cons_of_mem y hmem)]
      simp

theorem records_of_forall_none (before s : List Char)
    (h : ∀ u, u <:+ s → recordAt? start u = none) : records start before 0 s = [] := by
  induction s generalizing before with
  | nil => rfl
  | cons y s ih =>
      rw [records, h _ (List.suffix_refl _)]
      exact ih _ fun u hu => h u (hu.trans (List.suffix_cons y s))

theorem records_append_skip (before taken rest : List Char) :
    records start before taken.length (taken ++ rest) =
      records start (taken.reverse ++ before) 0 rest := by
  induction taken generalizing before with
  | nil => rfl
  | cons y taken ih =>
      rw [List.cons_append, List.length_cons, records, ih]
      simp

theorem toList_recordStart (tape : Tape) :
    tape.recordStart.toList = headMark :: (tape.definition.listing.toList ++ ['-']) := by
  change (headMark.toString ++ tape.definition.listing ++ "-").toList = _
  simp [Char.toString]

/-- A buffer is unreadable for its number of head records. -/
theorem exists_headCount_of_decode {tape : Tape} {buffer : String} {e : Error}
    (h : tape.decode buffer = .error e) : ∃ count, count ≠ 1 ∧ e = .headCount count := by
  rw [decode] at h
  split at h
  · cases h
  · rename_i hcount
    refine ⟨_, fun hone => ?_, (Except.error.inj h).symm⟩
    obtain ⟨c, hc⟩ := List.length_eq_one_iff.mp hone
    exact hcount c hc

/-- In a clear text no record is read. -/
theorem records_of_clear (tape : Tape) (before : List Char) {s : List Char}
    (h : tape.definition.Clear s) :
    records (headMark :: (tape.definition.listing.toList ++ ['-'])) before 0 s = [] := by
  apply records_of_forall_none
  intro u hu
  rw [Option.eq_none_iff_forall_ne_some]
  rintro ⟨state, x, after⟩ hrecord
  obtain ⟨hstate, hx, hu'⟩ := recordAt?_spec hrecord
  refine h (String.ofList state) x hstate hx (List.IsInfix.trans ?_ hu.isInfix)
  refine ⟨headMark :: tape.definition.states.flatMap String.toList, after, ?_⟩
  simp [hu', recordTail, Definition.toList_listing]

/-- A buffer reads back as the configuration that it shows. -/
theorem decode_encodeHead_of_intact (tape : Tape) {c : Configuration}
    (hc : c.Intact tape.definition) (hcursor : c.cursor ≠ "\n") :
    tape.decode (tape.encodeHead c) = .ok c := by
  obtain ⟨left, state, cursor, right⟩ := c
  obtain ⟨hleft, hright, ⟨digits, hstate, hne, hdigits⟩, x, rfl⟩ := hc
  have hx : x ≠ '\n' := by
    rintro rfl
    exact hcursor rfl
  let start := headMark :: (tape.definition.listing.toList ++ ['-'])
  let inner := tape.definition.listing.toList ++ ['-'] ++ 'Q' :: (digits ++ [':', x, headMark])
  have hrecord : recordAt? start (headMark :: (inner ++ right.toList)) =
      some ('Q' :: digits, x, right.toList) := by
    rw [← recordAt?_append start digits right.toList x hne hdigits hx]
    simp [start, inner]
  have htext : (tape.encodeHead ⟨left, state, x.toString, right⟩).toList =
      left.toList ++ headMark :: (inner ++ right.toList) := by
    simp only [Configuration.toList_encodeHead, Configuration.text, recordText] at hstate ⊢
    simp [hstate, inner, Char.toString]
  have hlength : (inner ++ right.toList).length - right.toList.length = inner.length := by simp
  have hfound : records start [] 0 (left.toList ++ headMark :: (inner ++ right.toList)) =
      [⟨left, state, x.toString, right⟩] := by
    have hwritten : String.ofList ('Q' :: digits) = state := by
      rw [← hstate, String.ofList_toList]
    rw [records_append_of_not_mem _ headMark _ _ _ hleft, records, hrecord]
    simp only [hlength]
    rw [records_append_skip, tape.records_of_clear _ hright]
    simp [hwritten]
  rw [decode, htext, toList_recordStart, hfound]

/-- On a tape without a mark it does so too. -/
theorem decode_encodeHead (tape : Tape) {c : Configuration} (hc : c.WellFormed)
    (hcursor : c.cursor ≠ "\n") : tape.decode (tape.encodeHead c) = .ok c :=
  tape.decode_encodeHead_of_intact hc.intact hcursor

/-- With a line feed under the head a buffer holds no head record. -/
theorem decode_encodeHead_of_line_feed (tape : Tape) {c : Configuration}
    (hd : ∀ t ∈ tape.definition.transitions, t.WellFormed) (hc : c.Intact tape.definition)
    (hcursor : c.cursor = "\n") : tape.decode (tape.encodeHead c) = .error (.headCount 0) := by
  let start := headMark :: (tape.definition.listing.toList ++ ['-'])
  let inner := tape.definition.listing.toList ++ '-' :: (c.state.toList ++ [':', '\n'])
  have hinner : headMark ∉ inner := by
    simp only [inner, List.mem_append, List.mem_cons, List.not_mem_nil, or_false, not_or]
    exact ⟨Definition.headMark_not_mem_listing hd, by decide, hc.state.headMark_not_mem,
      by decide, by decide⟩
  have hnone : recordAt? start (headMark :: (inner ++ headMark :: c.right.toList)) = none := by
    rw [Option.eq_none_iff_forall_ne_some]
    rintro ⟨state, x, after⟩ hrecord
    obtain ⟨hstate, hx, htext⟩ := recordAt?_spec hrecord
    have hcolon := hstate.colon_not_mem
    rw [String.toList_ofList] at hcolon
    have hrest : c.state.toList ++ ':' :: '\n' :: headMark :: c.right.toList =
        state ++ ':' :: x :: headMark :: after := by
      simpa [start, inner] using htext
    have hfeed := ((append_cons_prefix_iff _ _ _ _ hc.state.colon_not_mem hcolon).mp
      ⟨[], by rw [List.append_nil, hrest]⟩).2
    exact hx (List.cons_prefix_cons.mp hfeed).1.symm
  have htext : (tape.encodeHead c).toList =
      c.left.toList ++ headMark :: (inner ++ headMark :: c.right.toList) := by
    simp [Configuration.toList_encodeHead, Configuration.text, recordText, hcursor, inner]
  have hright : tape.definition.Clear (headMark :: c.right.toList) :=
    hc.right.cons (by decide)
  have hfound : records start [] 0 (tape.encodeHead c).toList = [] := by
    rw [htext, records_append_of_not_mem _ headMark _ _ _ hc.left, records, hnone]
    simp only
    rw [records_append_of_not_mem _ headMark _ _ _ hinner, tape.records_of_clear _ hright]
  rw [decode, toList_recordStart, hfound]
  rfl

end Tape

end SubstitutionAutomata
