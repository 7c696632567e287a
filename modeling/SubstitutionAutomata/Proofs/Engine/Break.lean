import SubstitutionAutomata.Proofs.Engine.Fixpoint

/-! # Calls that break off

A step, a run or a search breaks off where its observer stops it or where a step fails, whatever
makes the passes. It leaves the engine as the last completed step left it, but a recorded step that
fails has recorded its buffer. A pattern fails in the first step or never. -/

namespace SubstitutionAutomata

/-- A pattern can be applied to every buffer or to none. -/
theorem Pattern.apply_eq_error_iff (p : Pattern) (buffer : String) (fault : Regex.Template.Fault) :
    p.apply buffer = .error fault ↔
      Regex.Template.ofText p.regex.names p.template = .error fault := by
  rw [apply]
  cases Regex.Template.ofText p.regex.names p.template <;> simp

namespace Engine

variable {σ ε α π φ : Type} {observe : Observer σ ε π} {recording : Bool} {n : ℕ}
  {e e' last : Engine π} {seen seen' : σ} {next : Unit → Course α π φ}

theorem watch_visit_of_none (h : observe e seen = (seen', none)) :
    (Course.visit e next).watch observe seen = (next ()).watch observe seen' := by
  rw [Course.watch, h]

theorem watch_visit_of_some {reason : ε} (h : observe e seen = (seen', some reason)) :
    (Course.visit e next).watch observe seen = ⟨e, seen', .error (.observer reason)⟩ := by
  rw [Course.watch, h]

/-- What is left of an engine where a call breaks off. -/
def leftBy (recording : Bool) (e : Engine π) : Stop ε φ → Engine π
  | .observer _ => e
  | .fault _ => e.recordIf recording

theorem history_leftBy_eq_iff (recording : Bool) (e : Engine π) (stop : Stop ε φ) :
    (e.leftBy recording stop).history = e.history ↔
      ¬ (recording = true ∧ ∃ cause, stop = .fault cause) := by
  cases stop with
  | observer reason => simp [leftBy]
  | fault cause => simp [leftBy, history_recordIf_eq_iff]

variable [Pass π φ]

/-! ## Steps that complete -/

/-- So many steps that complete, before each of which the observer lets the call go on. -/
inductive Passes (observe : Observer σ ε π) (recording : Bool) :
    ℕ → Engine π → σ → Engine π → σ → Prop where
  | start (e : Engine π) (seen : σ) : Passes observe recording 0 e seen e seen
  | step {n : ℕ} {e e' last : Engine π} {seen seen' seen'' : σ} {count : ℕ}
      (hseen : observe e seen = (seen', none)) (hstep : e.step recording = (e', .ok count))
      (rest : Passes observe recording n e' seen' last seen'') :
      Passes observe recording (n + 1) e seen last seen''

theorem Passes.pattern (h : Passes observe recording n e seen last seen') :
    last.pattern = e.pattern := by
  induction h with
  | start => rfl
  | @step _ e _ _ _ _ _ _ _ hstep _ ih =>
      have hpattern := e.pattern_step recording
      rw [hstep] at hpattern
      rw [ih, hpattern]

/-! ## Where a call breaks off -/

/-- Why a call goes no further than an engine: the observer stops it, or lets it go on to a step
that fails. -/
def Stop.ArisesAt (observe : Observer σ ε π) (e : Engine π) (seen seen' : σ) : Stop ε φ → Prop
  | observer reason => observe e seen = (seen', some reason)
  | fault cause => observe e seen = (seen', none) ∧ Pass.apply e.pattern e.buffer = .error cause

/-- A call on `e` breaks off after its last completed step. -/
def BreaksOff (observe : Observer σ ε π) (recording : Bool) (e : Engine π) (seen : σ)
    (stop : Stop ε φ) (left : Watched σ ε α π φ) : Prop :=
  ∃ n last seen', Passes observe recording n e seen last seen' ∧
    stop.ArisesAt observe last seen' left.seen ∧ left.engine = last.leftBy recording stop

theorem BreaksOff.step {stop : Stop ε φ} {left : Watched σ ε α π φ} {count : ℕ}
    (hseen : observe e seen = (seen', none)) (hstep : e.step recording = (e', .ok count))
    (h : BreaksOff observe recording e' seen' stop left) :
    BreaksOff observe recording e seen stop left := by
  obtain ⟨n, last, seen'', hpasses, hleft⟩ := h
  exact ⟨n + 1, last, seen'', .step hseen hstep hpasses, hleft⟩

/-- A visit breaks off by itself, or what follows it does. -/
theorem breaksOff_visit {stop : Stop ε φ}
    (hstop : ((Course.visit e next).watch observe seen).result = .error stop)
    (hnext : ∀ seen', observe e seen = (seen', none) →
      ((next ()).watch observe seen').result = .error stop →
        BreaksOff observe recording e seen stop ((next ()).watch observe seen')) :
    BreaksOff observe recording e seen stop ((Course.visit e next).watch observe seen) := by
  cases hseen : observe e seen with
  | mk seen' reason? =>
      cases reason? with
      | none =>
          rw [watch_visit_of_none hseen] at hstop ⊢
          exact hnext seen' hseen hstop
      | some reason =>
          rw [watch_visit_of_some hseen] at hstop ⊢
          cases hstop
          exact ⟨0, e, seen, .start e seen, hseen, rfl⟩

/-- A course that visits an engine before each of its steps, goes on from a step that completes and
breaks off with one that fails. -/
inductive Stepping (recording : Bool) : Engine π → Course α π φ → Prop where
  | done (e : Engine π) (result : α) : Stepping recording e (.done e result)
  | last {e : Engine π} {next : Unit → Course α π φ} (result : α)
      (hnext : next () = .done e result) : Stepping recording e (.visit e next)
  | failed {e e' : Engine π} {fault : φ} {next : Unit → Course α π φ}
      (hstep : e.step recording = (e', .error fault)) (hnext : next () = .broken e' fault) :
      Stepping recording e (.visit e next)
  | stepped {e e' : Engine π} {count : ℕ} {next : Unit → Course α π φ}
      (hstep : e.step recording = (e', .ok count)) (rest : Stepping recording e' (next ())) :
      Stepping recording e (.visit e next)

theorem stepping_run (recording : Bool) (n : ℕ) (e : Engine π) :
    Stepping recording e (e.run recording n) := by
  induction n generalizing e with
  | zero => exact .last () rfl
  | succ n ih =>
      rw [run]
      rcases hstep : e.step recording with ⟨e', fault | count⟩
      · exact .failed hstep rfl
      · exact .stepped hstep (ih e')

theorem stepping_settle (limit steps : ℕ) (e : Engine π) :
    Stepping false e (e.settle limit steps) := by
  induction limit generalizing steps e with
  | zero => exact .done e _
  | succ limit ih =>
      rw [settle]
      rcases hstep : e.step false with ⟨e', fault | count⟩
      · exact .failed hstep rfl
      · refine .stepped hstep ?_
        dsimp only
        split
        · exact .done e' _
        · exact ih (steps + 1) e'

theorem Stepping.breaksOff {c : Course α π φ} (h : Stepping recording e c) {stop : Stop ε φ}
    (hstop : (c.watch observe seen).result = .error stop) :
    BreaksOff observe recording e seen stop (c.watch observe seen) := by
  induction h generalizing seen with
  | done e result => cases hstop
  | last result hnext =>
      refine breaksOff_visit hstop fun seen' _ hstop => ?_
      rw [hnext] at hstop
      cases hstop
  | @failed e e' _ next hstep hnext =>
      refine breaksOff_visit hstop fun seen' hseen hstop => ?_
      rw [hnext] at hstop ⊢
      cases hstop
      -- the buffer is recorded before the pass over it is made
      obtain ⟨hfault, rfl⟩ := step_eq_error_iff.mp hstep
      exact ⟨0, e, seen, .start e seen, ⟨hseen, hfault⟩, rfl⟩
  | stepped hstep _ ih =>
      exact breaksOff_visit hstop fun seen' hseen hstop => (ih hstop).step hseen hstep

/-- A step, a run or a search that breaks off, by a pass that fails or by its observer, leaves the
buffer and the generation of its last completed step, and the history too unless a recorded step
failed. -/
theorem failed_call_leaves_last_step {σ ε π φ : Type} [Pass π φ] (e : Engine π)
    (recording : Bool) (observe : Observer σ ε π) (seen : σ) (stop : Stop ε φ) :
    (∀ e' cause, e.step recording = (e', .error cause) → e' = e.recordIf recording) ∧
      (∀ n, ((e.run recording n).watch observe seen).result = .error stop →
        BreaksOff observe recording e seen stop ((e.run recording n).watch observe seen)) ∧
      (∀ limit, ((e.settle limit 0).watch observe seen).result = .error stop →
        BreaksOff observe false e seen stop ((e.settle limit 0).watch observe seen)) ∧
      ∀ last : Engine π,
        (last.leftBy recording stop).buffer = last.buffer ∧
          (last.leftBy recording stop).generation = last.generation ∧
          ((last.leftBy recording stop).history = last.history ↔
            ¬ (recording = true ∧ ∃ cause, stop = .fault cause)) := by
  refine ⟨fun e' cause h => (step_eq_error_iff.mp h).2,
    fun n => (stepping_run recording n e).breaksOff,
    fun limit => (stepping_settle limit 0 e).breaksOff,
    fun last => ⟨?_, ?_, history_leftBy_eq_iff recording last stop⟩⟩
  · cases stop <;> simp [leftBy]
  · cases stop <;> simp [leftBy]

/-! ## Patterns that cannot be applied -/

/-- A pattern that cannot be applied fails in the first step. -/
theorem Passes.eq_zero_of_apply_error {observe : Observer σ ε} {e last : Engine}
    (h : Passes observe recording n e seen last seen') {fault : Regex.Template.Fault}
    (hfault : last.pattern.apply last.buffer = .error fault) : n = 0 := by
  have hpattern := h.pattern
  cases h with
  | start => rfl
  | step _ hstep _ =>
      -- the first step applied the same pattern, to another buffer
      rw [Pattern.apply_eq_error_iff, hpattern, ← Pattern.apply_eq_error_iff _ e.buffer] at hfault
      rw [step_of_apply_error hfault] at hstep
      cases hstep

/-- Where a pattern cannot be applied no step has completed. -/
theorem BreaksOff.engine_of_fault {observe : Observer σ ε} {e : Engine}
    {cause : Regex.Template.Fault} {left : Watched σ ε α}
    (h : BreaksOff observe recording e seen (.fault cause) left) :
    left.engine = e.recordIf recording := by
  obtain ⟨n, last, seen', hpasses, ⟨-, hcause⟩, hengine⟩ := h
  obtain rfl := hpasses.eq_zero_of_apply_error hcause
  cases hpasses
  exact hengine

/-- Refers to a capture that its one clause does not have. -/
def misreferring : Engine where
  pattern := ⟨[⟨"(?P<a>x)", "", ["a"]⟩], "\\g<b>",
    .group (.capture "a" (.char 'x')), by decide⟩
  buffer := "xy"
  generation := 0
  history := #[]

/-- Lets a run go on up to a generation. -/
def haltingAt (generation : ℕ) : Observer Unit Unit :=
  fun e seen => (seen, if e.generation = generation then some () else none)

/-- A recorded run fails in its first step, and a callback stops another one before its third. -/
theorem failed_call_leaves_last_step_recorded :
    ((misreferring.run true 3).watch (haltingAt 2) ()).result =
        .error (.fault (.unknownGroup "b")) ∧
      ((misreferring.run true 3).watch (haltingAt 2) ()).engine =
        { misreferring with history := #["xy"] } ∧
      ((misreferring.settle 3 0).watch (haltingAt 2) ()).result =
        .error (.fault (.unknownGroup "b")) ∧
      ((misreferring.settle 3 0).watch (haltingAt 2) ()).engine = misreferring ∧
      ((swapping.run true 3).watch (haltingAt 7) ()).result = .error (.observer ()) ∧
      BreaksOff (haltingAt 7) true swapping () (.observer ())
        ((swapping.run true 3).watch (haltingAt 7) ()) := by
  have hrun : ((misreferring.run true 3).watch (haltingAt 2) ()).result =
      .error (.fault (.unknownGroup "b")) := rfl
  have hsettle : ((misreferring.settle 3 0).watch (haltingAt 2) ()).result =
      .error (.fault (.unknownGroup "b")) := rfl
  have hstopped : ((swapping.run true 3).watch (haltingAt 7) ()).result = .error (.observer ()) :=
    rfl
  obtain ⟨-, hruns, hsettles, -⟩ := failed_call_leaves_last_step misreferring true (haltingAt 2) ()
    (.fault (.unknownGroup "b"))
  exact ⟨hrun, (hruns 3 hrun).engine_of_fault, hsettle, (hsettles 3 hsettle).engine_of_fault,
    hstopped, (failed_call_leaves_last_step swapping true (haltingAt 7) () (.observer ())).2.1 3
      hstopped⟩

/-- No step completes, and the history grows. -/
theorem failing_step_adds_record :
    ∃ e', misreferring.step true = (e', .error (.unknownGroup "b")) ∧
      e'.buffer = misreferring.buffer ∧ e'.generation = misreferring.generation ∧
      misreferring.history = #[] ∧ e'.history = #["xy"] :=
  ⟨misreferring.record, rfl, rfl, rfl, rfl, rfl⟩

end Engine

end SubstitutionAutomata
