import SubstitutionAutomata.Proofs.Machine.HeadRecord
import SubstitutionAutomata.Proofs.Machine.Run

/-! # What a settled machine reports

An engine that searches for a fixpoint reports the run of the table under the same limit: its steps,
where it ends, and that it halted exactly if the table has no move before the limit is reached. -/

namespace SubstitutionAutomata

variable {d : Definition} {c : Configuration}

namespace Configuration

theorem OnTape.after (hd : ∀ t ∈ d.transitions, t.WellFormed) {cells : ℕ} (hc : c.OnTape d cells)
    (n : ℕ) : (c.after d n).OnTape d cells := by
  induction n generalizing c with
  | zero => exact hc
  | succ n ih => exact ih (hc.next hd)

/-- Within a limit the table halts, or makes as many moves as the limit allows. -/
theorem haltsAfter_or_moves (d : Definition) (c : Configuration) (limit : ℕ) :
    (∃ n < limit, c.HaltsAfter d n) ∨ c.Moves d limit := by
  induction limit with
  | zero => exact .inr fun m hm => absurd hm (Nat.not_lt_zero m)
  | succ limit ih =>
      rcases ih with ⟨n, hn, h⟩ | hmoves
      · exact .inl ⟨n, Nat.lt_succ_of_lt hn, h⟩
      · cases h : (c.after d limit).step? d with
        | none => exact .inl ⟨limit, Nat.lt_succ_self limit, hmoves, h⟩
        | some c' =>
            right
            intro m hm
            rcases Nat.lt_succ_iff_lt_or_eq.mp hm with hlt | rfl
            · exact hmoves m hlt
            · simp [h]

/-- Under an optional limit the table halts, or there is a limit and it makes that many moves. -/
theorem haltsAfter_or_moves_of_limit {limit? : Option Int}
    (h : limit? = none → ∃ n, (c.after d n).step? d = none) :
    (∃ n, c.HaltsAfter d n ∧ ∀ m : Int, limit? = some m → (n : Int) < m) ∨
      ∃ m : Int, limit? = some m ∧ c.Moves d m.toNat := by
  cases limit? with
  | none =>
      obtain ⟨n, hstuck⟩ := h rfl
      rcases haltsAfter_or_moves d c (n + 1) with ⟨m, -, hhalts⟩ | hmoves
      · exact .inl ⟨m, hhalts, by simp⟩
      · have hmove := hmoves n (Nat.lt_succ_self n)
        simp [hstuck] at hmove
  | some m =>
      rcases haltsAfter_or_moves d c m.toNat with ⟨n, hn, hhalts⟩ | hmoves
      · refine .inl ⟨n, hhalts, fun m' hm' => ?_⟩
        obtain rfl := Option.some.inj hm'
        omega
      · exact .inr ⟨m, rfl, hmoves⟩

end Configuration

/-- What an engine reports that settled in a configuration after so many moves of the table. -/
structure MachineEngine.Reports (tape : Tape) (final : Engine) (report : Engine.Report)
    (c : Configuration) (moves : ℕ) (halts : Prop) : Prop where
  steps : report.steps = moves
  buffer : final.buffer = tape.encodeHead c
  halted : report.halted = true ↔ halts
  verdict : (MachineEngine.mk tape final).verdict report.halted =
    .ok ⟨c.state, if report.halted then tape.definition.isAccepting c.state else none⟩
  generation : final.generation = if report.halted then moves + 1 else moves

/-- The engine that a search for a fixpoint leaves, the last generation of which may have changed
nothing. -/
def Engine.settled (start : Engine) (buffer : String) (moves : ℕ) (unchanged : Option ℕ) : Engine :=
  { start with
    buffer := buffer
    generation := start.generation + moves + if unchanged.isSome then 1 else 0 }

theorem MachineEngine.reports_settled (tape : Tape) {cells : ℕ}
    (hc : c.OnTape tape.definition cells) (start : Engine) (hstart : start.generation = 0)
    (moves : ℕ) (unchanged : Option ℕ) {halts : Prop} (hhalts : unchanged.isSome = true ↔ halts) :
    Reports tape (start.settled (tape.encodeHead c) moves unchanged) ⟨moves, unchanged⟩ c moves
      halts where
  steps := rfl
  buffer := rfl
  halted := hhalts
  verdict := by
    have hhead : (MachineEngine.mk tape
        (start.settled (tape.encodeHead c) moves unchanged)).head = .ok c :=
      tape.decode_encodeHead hc.wellFormed hc.cursor
    rw [MachineEngine.verdict, hhead]
  generation := by
    rw [Engine.settled, hstart, Nat.zero_add, Engine.Report.halted]
    split <;> rfl

open SubstitutionAutomata.Configuration in
/-- If transitions for one state and one symbol move the head to one side, an engine reports the run
of the table from the head that the engine starts with: as many steps, and the configuration that
the run ends in. It halted exactly if after fewer moves than the limit the table has none, and the
generation that found this out counts as one. A halt is accepting or not as its state is. -/
theorem MachineEngine.settled_reports_run {lines accepting : List String}
    (hlines : Definition.ofLines lines accepting = .ok d) (hdirections : d.SharesDirections)
    (length : Int) (content : String) (hmark : headMark ∉ content.toList)
    (hfeed : content.toList.head? ≠ some '\n') (first : Configuration)
    (hfirst : first = Tape.start ⟨d, length, Tape.defaultEmptySymbol⟩ content d.initialState)
    (limit? : Option Int) (hhalts : limit? = none → ∃ n, (first.after d n).step? d = none) :
    ∃ e final report c moves,
      ofContent ⟨d, length, Tape.defaultEmptySymbol⟩ content false = .ok e ∧
      e.head = .ok first ∧
      (∀ limit, Engine.Limits limit? moves limit →
        first.run d limit 0 = (c, moves) ∧
        (e.engine.settle limit 0).watch Engine.unobserved () = ⟨final, (), .ok report⟩) ∧
      Reports ⟨d, length, Tape.defaultEmptySymbol⟩ final report c moves
        (∃ n : ℕ, (∀ m : Int, limit? = some m → (n : Int) < m) ∧
          (first.after d n).step? d = none) := by
  have hd := Definition.wellFormed_of_ofLines hlines
  let tape : Tape := ⟨d, length, Tape.defaultEmptySymbol⟩
  obtain ⟨p, hp, happly⟩ := tape.exists_pattern_apply hd hdirections
  have hstart := onTape_start hd length hmark hfeed
  rw [← hfirst] at hstart
  let start := Engine.ofBuffer p (tape.encodeHead first)
  have hcontent : ofContent tape content false = .ok ⟨tape, start⟩ := by
    rw [ofContent_eq_ok hp, ← hfirst]
  have hhead : (MachineEngine.mk tape start).head = .ok first :=
    tape.decode_encodeHead hstart.wellFormed hstart.cursor
  rcases haltsAfter_or_moves_of_limit hhalts with ⟨n, hhalts, hbelow⟩ | ⟨m, rfl, hmoves⟩
  · refine ⟨⟨tape, start⟩, start.settled (tape.encodeHead (first.after d n)) n (some 0),
      ⟨n, some 0⟩, first.after d n, n, hcontent, hhead, ?_, ?_⟩
    · intro limit hlimit
      have hlt : n < limit := hlimit.lt hbelow
      exact ⟨hhalts.run_eq hlt,
        Engine.settle_of_haltsAfter tape hd happly hhalts hstart.wellFormed start rfl rfl hlt⟩
    · exact reports_settled tape (hstart.after hd n) start rfl n (some 0)
        (iff_of_true rfl ⟨n, hbelow, hhalts.stuck⟩)
  · refine ⟨⟨tape, start⟩, start.settled (tape.encodeHead (first.after d m.toNat)) m.toNat none,
      ⟨m.toNat, none⟩, first.after d m.toNat, m.toNat, hcontent, hhead, ?_, ?_⟩
    · rintro limit rfl
      have hrun := run_of_moves hmoves 0 0
      rw [Nat.add_zero, Nat.zero_add] at hrun
      exact ⟨hrun,
        Engine.settle_of_moves tape hd happly hmoves hstart.wellFormed start rfl rfl⟩
    · refine reports_settled tape (hstart.after hd _) start rfl _ none (iff_of_false (by simp) ?_)
      rintro ⟨n, hbelow, hstuck⟩
      have hn := hbelow m rfl
      have hmove := hmoves n (by omega)
      simp [hstuck] at hmove

open SubstitutionAutomata.Configuration in
/-- A head that passes over every cell halts at the end of the tape. -/
theorem MachineEngine.settled_reports_run_at_end :
    ∃ d e final report,
      Definition.ofLines ["Q0:a/a->R:Q0"] [] = .ok d ∧ d.SharesDirections ∧
      headMark ∉ "aaa".toList ∧ "aaa".toList.head? ≠ some '\n' ∧
      ofContent ⟨d, 0, Tape.defaultEmptySymbol⟩ "aaa" false = .ok e ∧
      (e.engine.settle 3 0).watch Engine.unobserved () = ⟨final, (), .ok report⟩ ∧
      report.steps = 2 ∧ report.halted = true ∧ final.buffer = "aa#Q0:a-Q0:a#" ∧
      final.generation = 3 := by
  let d : Definition :=
    ⟨["Q0:a/a->R:Q0"], [⟨"Q0", "a", "a", .right, "Q0"⟩], [], List.cons_ne_nil _ _⟩
  have hlines : Definition.ofLines ["Q0:a/a->R:Q0"] [] = .ok d := by rfl
  have hdirections : d.SharesDirections := by
    intro t ht t' ht' _ _
    obtain rfl := List.mem_singleton.mp ht
    obtain rfl := List.mem_singleton.mp ht'
    rfl
  have hmark : headMark ∉ "aaa".toList := by decide
  have hfeed : "aaa".toList.head? ≠ some '\n' := by decide
  have hhalts : HaltsAfter d 2 ⟨"", "Q0", "a", "aa"⟩ :=
    ⟨by unfold Moves; decide, by decide⟩
  have hend : after d 2 ⟨"", "Q0", "a", "aa"⟩ = ⟨"aa", "Q0", "a", ""⟩ := by decide
  obtain ⟨e, final, report, c, moves, hcontent, -, hrun, hreports⟩ :=
    settled_reports_run hlines hdirections 0 "aaa" hmark hfeed ⟨"", "Q0", "a", "aa"⟩
      (by decide) none fun _ => ⟨2, hhalts.stuck⟩
  have hlimit : 2 < moves + 3 := by omega
  have htable := (hrun (moves + 3) (Nat.lt_add_of_pos_right (by decide))).1
  rw [hhalts.run_eq hlimit, hend] at htable
  obtain ⟨rfl, rfl⟩ := Prod.mk.inj htable
  have hhalted : report.halted = true := hreports.halted.mpr ⟨2, by simp, hhalts.stuck⟩
  refine ⟨d, e, final, report, hlines, hdirections, hmark, hfeed, hcontent,
    (hrun 3 (Nat.lt_succ_self 2)).2, hreports.steps, hhalted, ?_, ?_⟩
  · rw [hreports.buffer]
    decide
  · rw [hreports.generation, hhalted]
    rfl

end SubstitutionAutomata
