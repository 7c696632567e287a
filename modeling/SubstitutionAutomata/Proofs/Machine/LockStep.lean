import SubstitutionAutomata.Proofs.Machine.Leftmost

/-! # The pattern and the table in lock step

If transitions for one state and one symbol move the head to one side, one pass of a machine's
pattern makes the move that the table of transitions makes, and replaces nothing where the table has
no move. -/

namespace SubstitutionAutomata

/-- Transitions for one state and one symbol move the head to one side. -/
def Definition.SharesDirections (d : Definition) : Prop :=
  ∀ t ∈ d.transitions, ∀ t' ∈ d.transitions,
    t.state = t'.state → t.symbol = t'.symbol → t.direction = t'.direction

variable {d : Definition} {c : Configuration}

theorem Definition.SharesDirections.firstListedDecides (h : d.SharesDirections)
    (c : Configuration) : d.FirstListedDecides c := by
  intro t ht
  right
  intro t' ht'
  obtain ⟨hmem, hstate, hsymbol⟩ := transition?_spec ht
  obtain ⟨_, hmem', hstate', hsymbol', -⟩ := mem_applicable_iff.mp ht'
  rw [h t' hmem' t hmem (hstate'.trans hstate.symm) (hsymbol'.trans hsymbol.symm)]

/-! ## Whole runs -/

namespace Configuration

/-- The configuration after so many moves; a machine that has no move stays where it is. -/
def after (d : Definition) : ℕ → Configuration → Configuration
  | 0, c => c
  | n + 1, c => after d n ((c.step? d).getD c)

theorem after_eq_iterate (d : Definition) (n : ℕ) (c : Configuration) :
    c.after d n = (fun c => (c.step? d).getD c)^[n] c := by
  induction n generalizing c with
  | zero => rfl
  | succ n ih => rw [after, ih, Function.iterate_succ_apply]

theorem after_succ (d : Definition) (n : ℕ) (c : Configuration) :
    c.after d (n + 1) = ((c.after d n).step? d).getD (c.after d n) := by
  rw [after_eq_iterate, after_eq_iterate, Function.iterate_succ_apply']

theorem WellFormed.next (hd : ∀ t ∈ d.transitions, t.WellFormed) (hc : c.WellFormed) :
    ((c.step? d).getD c).WellFormed := by
  cases h : c.step? d with
  | none => exact hc
  | some c' => exact hc.step? hd h

end Configuration

/-- The pattern of a definition makes the moves of its table. -/
theorem Tape.exists_pattern_apply (tape : Tape)
    (hd : ∀ t ∈ tape.definition.transitions, t.WellFormed)
    (hdirections : tape.definition.SharesDirections) :
    ∃ p, tape.definition.pattern = .ok p ∧
      tape.Makes p Configuration.WellFormed (Configuration.step? tape.definition) := by
  obtain ⟨p, hp, happly⟩ := tape.exists_pattern_leftmost hd
  refine ⟨p, hp, fun c hc => ?_⟩
  rw [happly c hc, Configuration.leftmostStep?_eq_step? (hdirections.firstListedDecides c)]

/-- An engine that shows a configuration shows all later ones. -/
theorem Engine.after_encodeHead (tape : Tape)
    (hd : ∀ t ∈ tape.definition.transitions, t.WellFormed) {p : Pattern}
    (happly : tape.Makes p Configuration.WellFormed (Configuration.step? tape.definition))
    (n : ℕ) (e : Engine) (c : Configuration) (hpattern : e.pattern = p)
    (hbuffer : e.buffer = tape.encodeHead c) (hc : c.WellFormed) :
    (e.after n).pattern = p ∧ (e.after n).buffer = tape.encodeHead (c.after tape.definition n) ∧
      (c.after tape.definition n).WellFormed := by
  rw [Configuration.after_eq_iterate]
  exact Engine.after_iterate tape happly (fun c hc => hc.next hd) n e c hpattern hbuffer hc

/-- The engine of a definition and its table run in lock step: after every number of steps the
buffer shows the configuration of the table, and the next step replaces one record if the table has
a move and nothing if it has none. -/
theorem Definition.engine_lockstep_table {lines accepting : List String} {d : Definition}
    (hlines : ofLines lines accepting = .ok d) (hdirections : d.SharesDirections) (tape : Tape)
    (htape : tape.definition = d) (c : Configuration) (hc : c.WellFormed) :
    ∃ p, d.pattern = .ok p ∧ ∀ n,
      ((Engine.ofBuffer p (tape.encodeHead c)).after n).buffer =
          tape.encodeHead (c.after d n) ∧
        (((Engine.ofBuffer p (tape.encodeHead c)).after n).step false).2 =
          .ok (if ((c.after d n).step? d).isSome then 1 else 0) := by
  subst htape
  have hd := wellFormed_of_ofLines hlines
  obtain ⟨p, hp, happly⟩ := tape.exists_pattern_apply hd hdirections
  refine ⟨p, hp, fun n => ?_⟩
  obtain ⟨hpattern, hbuffer, hwf⟩ := Engine.after_encodeHead tape hd happly n
    (Engine.ofBuffer p (tape.encodeHead c)) c rfl rfl hc
  refine ⟨hbuffer, ?_⟩
  rw [happly.step_eq hpattern hbuffer hwf]

/-- A machine of one transition moves once and is stuck. -/
theorem Definition.engine_lockstep_table_single :
    ∃ d, ofLines ["Q0:a/b->R:Q1"] [] = .ok d ∧ d.SharesDirections ∧
      (⟨"", "Q0", "a", "c"⟩ : Configuration).WellFormed ∧
      ∃ p, d.pattern = .ok p ∧
        ((Engine.ofBuffer p "#Q0Q1:ab-Q0:a#c").after 2).buffer = "b#Q0Q1:ab-Q1:c#" ∧
        (((Engine.ofBuffer p "#Q0Q1:ab-Q0:a#c").after 2).step false).2 = .ok 0 := by
  let d : Definition :=
    ⟨["Q0:a/b->R:Q1"], [⟨"Q0", "a", "b", .right, "Q1"⟩], [], List.cons_ne_nil _ _⟩
  have hlines : ofLines ["Q0:a/b->R:Q1"] [] = .ok d := by rfl
  have hdirections : d.SharesDirections := by
    intro t ht t' ht' _ _
    obtain rfl := List.mem_singleton.mp ht
    obtain rfl := List.mem_singleton.mp ht'
    rfl
  have hc : (⟨"", "Q0", "a", "c"⟩ : Configuration).WellFormed :=
    ⟨by decide, by decide, isState_zero, 'a', rfl⟩
  obtain ⟨p, hp, hrun⟩ := engine_lockstep_table hlines hdirections ⟨d, 0, "_"⟩ rfl _ hc
  have hstart : Tape.encodeHead ⟨d, 0, "_"⟩ ⟨"", "Q0", "a", "c"⟩ = "#Q0Q1:ab-Q0:a#c" := by
    decide
  have hend : Tape.encodeHead ⟨d, 0, "_"⟩ (Configuration.after d 2 ⟨"", "Q0", "a", "c"⟩) =
      "b#Q0Q1:ab-Q1:c#" := by decide
  have hstuck : ((Configuration.after d 2 ⟨"", "Q0", "a", "c"⟩).step? d).isSome = false := by
    decide
  have htwo := hrun 2
  rw [hstart, hend, hstuck] at htwo
  exact ⟨d, hlines, hdirections, hc, p, hp, htwo⟩

end SubstitutionAutomata
