import SubstitutionAutomata.Proofs.Machine.Pattern

/-! # What the clause of a transition matches

The states and symbols of a listing may be any texts, and so may what the transition is for. The
written clause always reads back, and it matches where the text goes on with the head record and a
word character on the side that the head moves to. -/

namespace SubstitutionAutomata.Transition

open Regex Text

variable {t : Transition} {states symbols : List String} {i : ℕ}

/-- A missing state is found before a missing symbol. -/
theorem clause_eq_error_iff (e : Clause.Error) :
    t.clause states symbols i = .error e ↔
      (t.next ∉ states ∨ t.written ∉ symbols) ∧
        e = if t.next ∈ states then .missing t.written symbols else .missing t.next states := by
  by_cases hnext : t.next ∈ states
  · by_cases hwritten : t.written ∈ symbols
    · simp [clause_eq_ok i hnext hwritten, hnext, hwritten]
    · simp [clause, hnext, hwritten, eq_comm]
  · simp [clause, hnext, eq_comm]

theorem clause_eq_ok_iff (c : Clause) :
    t.clause states symbols i = .ok c ↔
      t.next ∈ states ∧ t.written ∈ symbols ∧ c = t.compiled states symbols i := by
  by_cases hnext : t.next ∈ states
  · by_cases hwritten : t.written ∈ symbols
    · simp [clause_eq_ok i hnext hwritten, hnext, hwritten, eq_comm]
    · simp [clause, hnext, hwritten]
  · simp [clause, hnext]

/-- Escaped values read back whatever their characters are, and a listing without repetitions holds
one capture. -/
theorem parse_compiled (hnext : t.next ∈ states) (hwritten : t.written ∈ symbols)
    (hstates : states.Nodup) (hsymbols : symbols.Nodup) :
    Regex.parse (t.compiled states symbols i).pattern.toList =
      .ok (concat (t.clauseItems states symbols i)) := by
  rw [toList_pattern_compiled]
  apply parse_concat_text
  · exact legible_clauseItems i
  · exact (names_clauseItems i hnext hwritten hstates hsymbols).nodup_iff.mpr
      (t.nodup_captureNames i)
  · exact fixedBehinds_clauseItems i

theorem exists_matchAt_iff (hnext : t.next ∈ states) (hwritten : t.written ∈ symbols)
    (text : Array Char) (p : ℕ) :
    (∃ m, (concat (t.clauseItems states symbols i)).matchAt text p = some m) ↔
      ∃ x, isWord x = true ∧ t.listedText states symbols x <+: text.toList.drop p := by
  constructor
  · rintro ⟨m, hm⟩
    by_contra hnone
    have hno := matchAt_eq_none (i := i) text p fun x hword hx => hnone ⟨x, hword, hx⟩
    rw [hm] at hno
    cases hno
  · rintro ⟨x, hword, hx⟩
    obtain ⟨m, hm, -⟩ := matchAt_of_listedText (i := i) text p hnext hwritten hword hx
    exact ⟨m, hm⟩

/-- A transition has a clause exactly if its next state and its written symbol are listed. The
clause of distinct values reads back. It matches a text at a position exactly if the text goes on
with the record and a word character beside it, and takes just these, and its captures are the next
state, the written symbol and that character. -/
theorem clause_matches_exactly_record (t : Transition) (states symbols : List String)
    (hstates : states.Nodup) (hsymbols : symbols.Nodup) (i : ℕ) :
    ((∃ e, t.clause states symbols i = .error e) ↔ t.next ∉ states ∨ t.written ∉ symbols) ∧
      (∀ e, t.clause states symbols i = .error e →
        e = if t.next ∈ states then .missing t.written symbols else .missing t.next states) ∧
      ∀ c, t.clause states symbols i = .ok c →
        c.captures = t.captureNames i ∧ ∃ r, Regex.parse c.pattern.toList = .ok r ∧
          ∀ (text : Array Char) (p : ℕ),
            ((∃ m, r.matchAt text p = some m) ↔
              ∃ x, isWord x = true ∧ t.listedText states symbols x <+: text.toList.drop p) ∧
            ∀ m x, r.matchAt text p = some m → isWord x = true →
              t.listedText states symbols x <+: text.toList.drop p →
              m.stop = p + (t.listedText states symbols x).length ∧
                c.captures.map (m.captured text) = [t.next.toList, t.written.toList, [x]] := by
  refine ⟨?_, fun e he => ((clause_eq_error_iff e).mp he).2, ?_⟩
  · simp only [clause_eq_error_iff, exists_and_left, exists_eq, and_true]
  · intro c hc
    obtain ⟨hnext, hwritten, rfl⟩ := (clause_eq_ok_iff c).mp hc
    refine ⟨rfl, _, parse_compiled hnext hwritten hstates hsymbols, fun text p => ?_⟩
    refine ⟨exists_matchAt_iff hnext hwritten text p, fun m x hm hword hx => ?_⟩
    obtain ⟨m', hm', hrecord⟩ :=
      matchAt_of_listedText (i := i) text p hnext hwritten hword hx
    obtain rfl := Option.some.inj (hm'.symm.trans hm)
    refine ⟨hrecord.stop, ?_⟩
    simp only [compiled, captureNames, List.map_cons, List.map_nil, hrecord.state,
      hrecord.written, hrecord.cursor]

/-- A transition whose texts mean something else where they are not escaped. -/
def bracketed : Transition := ⟨"#:", "-", "a", .letter "X", "(("⟩

/-- Listed values that begin one another or hold brackets and a line feed are told apart. -/
theorem clause_matches_exactly_record_brackets :
    ["(", "((", "\n"].Nodup ∧ ["a", "ab"].Nodup ∧ isWord 'x' = true ∧
      bracketed.listedText ["(", "((", "\n"] ["a", "ab"] 'x' <+:
        "yx#(((\n:aab-#::-#".toList.toArray.toList.drop 1 ∧
      ∃ c r m, bracketed.clause ["(", "((", "\n"] ["a", "ab"] 7 = .ok c ∧
        Regex.parse c.pattern.toList = .ok r ∧
        r.matchAt "yx#(((\n:aab-#::-#".toList.toArray 1 = some m ∧ m.stop = 17 ∧
        c.captures.map (m.captured "yx#(((\n:aab-#::-#".toList.toArray) =
          ["((".toList, "a".toList, ['x']] := by
  have hstates : ["(", "((", "\n"].Nodup := by decide
  have hsymbols : ["a", "ab"].Nodup := by decide
  have hword : isWord 'x' = true := by decide
  have hx : bracketed.listedText ["(", "((", "\n"] ["a", "ab"] 'x' <+:
      "yx#(((\n:aab-#::-#".toList.toArray.toList.drop 1 := by decide
  have hlisted : bracketed.clause ["(", "((", "\n"] ["a", "ab"] 7 =
      .ok (bracketed.compiled ["(", "((", "\n"] ["a", "ab"] 7) :=
    clause_eq_ok 7 (by decide) (by decide)
  obtain ⟨-, -, hclause⟩ :=
    clause_matches_exactly_record bracketed ["(", "((", "\n"] ["a", "ab"] hstates hsymbols 7
  obtain ⟨-, r, hr, hmatches⟩ := hclause _ hlisted
  obtain ⟨hexists, hspec⟩ := hmatches "yx#(((\n:aab-#::-#".toList.toArray 1
  obtain ⟨m, hm⟩ := hexists.mpr ⟨'x', hword, hx⟩
  obtain ⟨hstop, hcaptures⟩ := hspec m 'x' hm hword hx
  exact ⟨hstates, hsymbols, hword, hx, _, r, m, hlisted, hr, hm, hstop.trans (by decide),
    hcaptures⟩

end SubstitutionAutomata.Transition
