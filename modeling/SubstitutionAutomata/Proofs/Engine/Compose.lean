import SubstitutionAutomata.Proofs.Engine.Break

/-! # Runs one after the other

As long as no pass fails, two runs in a row are one run. A callback sees the buffers of all
generations in order, and a callback that raises leaves the engine of the shorter run up to this
call. -/

namespace SubstitutionAutomata.Engine

variable {σ ε π φ : Type} [Pass π φ] {e : Engine π}

/-! ## Generations of passes that do not fail -/

def bufferAfter (e : Engine π) (n : ℕ) : String := (e.after n).buffer

theorem exists_apply_bufferAfter
    (happlies : ∀ buffer, ∃ out, Pass.apply e.pattern buffer = .ok out) (n : ℕ) :
    ∃ count, Pass.apply e.pattern (e.bufferAfter n) = .ok (e.bufferAfter (n + 1), count) := by
  obtain ⟨⟨buffer, count⟩, happly⟩ := happlies (e.bufferAfter n)
  have hstep := happly
  rw [← pattern_after n e] at hstep
  refine ⟨count, ?_⟩
  rw [happly, bufferAfter, after_succ_eq_step, step_of_apply hstep]

/-- An engine after so many steps. If steps are recorded, the history has got the buffers that they
started from. -/
def passed (e : Engine π) (recording : Bool) (n : ℕ) : Engine π :=
  { e with
    buffer := e.bufferAfter n
    generation := e.generation + n
    history := if recording then e.history ++ ((List.range n).map e.bufferAfter).toArray
      else e.history }

theorem passed_zero (e : Engine π) (recording : Bool) : e.passed recording 0 = e := by
  cases recording <;> simp [passed, bufferAfter, after]

theorem exists_step_passed (happlies : ∀ buffer, ∃ out, Pass.apply e.pattern buffer = .ok out)
    (recording : Bool) (n : ℕ) :
    ∃ count, (e.passed recording n).step recording = (e.passed recording (n + 1), .ok count) := by
  obtain ⟨count, happly⟩ := exists_apply_bufferAfter happlies n
  have hpassed : Pass.apply (e.passed recording n).pattern (e.passed recording n).buffer =
      .ok (e.bufferAfter (n + 1), count) := happly
  refine ⟨count, (step_of_apply hpassed).trans ?_⟩
  cases recording with
  | false => rfl
  | true => simp [recordIf, record, passed, List.range_succ, Nat.add_assoc]

/-! ## Callbacks -/

/-- Hands the generation and the buffer of every visit to a callback, which may raise. -/
def raising (call : ℕ → String → σ → σ × Option ε) : Observer σ ε π :=
  fun e seen => call e.generation e.buffer seen

/-- What a callback sees. -/
def noting (call : ℕ → String → σ → σ × Option ε) : ℕ → String → σ → σ :=
  fun generation buffer seen => (call generation buffer seen).1

/-- What a callback that may raise has seen after its first `n` calls. -/
def seenBefore (call : ℕ → String → σ → σ × Option ε) (e : Engine π) (seen : σ) (n : ℕ) : σ :=
  seenAfter (noting call) e e.bufferAfter seen n

/-- What a callback raises at its call number `n`, counted from 0. -/
def raisedAt (call : ℕ → String → σ → σ × Option ε) (e : Engine π) (seen : σ) (n : ℕ) :
    Option ε :=
  (call (e.generation + n) (e.bufferAfter n) (seenBefore call e seen n)).2

variable (call : ℕ → String → σ → σ × Option ε) (seen : σ)

theorem raising_passed (e : Engine π) (recording : Bool) (n : ℕ) :
    raising call (e.passed recording n) (seenBefore call e seen n) =
      (seenBefore call e seen (n + 1), raisedAt call e seen n) := by
  rw [seenBefore, seenBefore, seenAfter_succ]
  rfl

/-- As long as the callback raises nothing, the steps complete. -/
theorem passes_passed (happlies : ∀ buffer, ∃ out, Pass.apply e.pattern buffer = .ok out)
    (recording : Bool) (start n : ℕ)
    (hquiet : ∀ i, start ≤ i → i < start + n → raisedAt call e seen i = none) :
    Passes (raising call) recording n (e.passed recording start) (seenBefore call e seen start)
      (e.passed recording (start + n)) (seenBefore call e seen (start + n)) := by
  -- the steps are peeled off at the front, as `Passes` does
  induction n generalizing start with
  | zero => exact .start _ _
  | succ n ih =>
      obtain ⟨count, hstep⟩ := exists_step_passed happlies recording start
      have hvisit := raising_passed call seen e recording start
      rw [hquiet start le_rfl (Nat.lt_add_of_pos_right n.succ_pos)] at hvisit
      have hrest := ih (start + 1) fun i hi hn => hquiet i (Nat.le_of_succ_le hi) (by omega)
      rw [Nat.add_right_comm] at hrest
      exact .step hvisit hstep hrest

/-! ## Runs -/

theorem Passes.watch_run {observe : Observer σ ε π} {recording : Bool} {n : ℕ} {e last : Engine π}
    {seen seen' : σ} (h : Passes observe recording n e seen last seen') (m : ℕ) :
    (e.run recording (n + m)).watch observe seen = (last.run recording m).watch observe seen' := by
  induction h with
  | start => rw [Nat.zero_add]
  | step hseen hstep _ ih =>
      rw [Nat.add_right_comm, run_succ_of_step _ hstep, watch_visit_of_none hseen]
      exact ih

theorem watch_run_add (happlies : ∀ buffer, ∃ out, Pass.apply e.pattern buffer = .ok out)
    (recording : Bool) (n m : ℕ)
    (hquiet : ∀ i < n, raisedAt call e seen i = none) :
    (e.run recording (n + m)).watch (raising call) seen =
      ((e.passed recording n).run recording m).watch (raising call) (seenBefore call e seen n) := by
  have hpasses := passes_passed call seen happlies recording 0 n fun i _ hi =>
    hquiet i (by omega)
  rw [passed_zero, Nat.zero_add] at hpasses
  exact hpasses.watch_run m

/-- A run whose callback raises nothing comes to its end. -/
theorem watch_run_of_quiet (happlies : ∀ buffer, ∃ out, Pass.apply e.pattern buffer = .ok out)
    (recording : Bool) (n : ℕ)
    (hquiet : ∀ i ≤ n, raisedAt call e seen i = none) :
    (e.run recording n).watch (raising call) seen =
      ⟨e.passed recording n, seenBefore call e seen (n + 1), .ok ()⟩ := by
  have hrun := watch_run_add call seen happlies recording n 0 fun i hi => hquiet i hi.le
  have hvisit := raising_passed call seen e recording n
  rw [hquiet n le_rfl] at hvisit
  rw [Nat.add_zero] at hrun
  rw [hrun, run, watch_visit_of_none hvisit]
  rfl

/-- A callback that raises ends the run at this call. -/
theorem watch_run_of_raised (happlies : ∀ buffer, ∃ out, Pass.apply e.pattern buffer = .ok out)
    (recording : Bool) {k n : ℕ} (hk : k ≤ n) {reason : ε}
    (hquiet : ∀ i < k, raisedAt call e seen i = none)
    (hraised : raisedAt call e seen k = some reason) :
    (e.run recording n).watch (raising call) seen =
      ⟨e.passed recording k, seenBefore call e seen (k + 1), .error (.observer reason)⟩ := by
  obtain ⟨m, rfl⟩ := Nat.exists_eq_add_of_le hk
  have hvisit := raising_passed call seen e recording k
  rw [hraised] at hvisit
  obtain ⟨next, hnext⟩ := exists_run_eq_visit recording m (e.passed recording k)
  rw [watch_run_add call seen happlies recording k m hquiet, hnext, watch_visit_of_some hvisit]

/-- Two runs in a row leave the engine of one run of all their steps. A run calls back with every
generation and its buffer, from the first to the last, and records the buffers that its steps start
from. A callback that raises leaves the engine of the run that would have ended with this call. -/
theorem runs_compose {σ ε π φ : Type} [Pass π φ] {e : Engine π}
    (happlies : ∀ buffer, ∃ out, Pass.apply e.pattern buffer = .ok out) (recording : Bool) (n : ℕ) :
    (∀ m, (((e.run recording n).watch unobserved ()).engine.run recording m).watch unobserved () =
        (e.run recording (n + m)).watch unobserved ()) ∧
      (∀ (look : ℕ → String → σ → σ) (seen : σ),
        (e.run recording n).watch (calling look) seen =
          ⟨{ e with
              buffer := e.bufferAfter n
              generation := e.generation + n
              history := if recording then e.history ++ ((List.range n).map e.bufferAfter).toArray
                else e.history },
            seenAfter look e e.bufferAfter seen (n + 1), .ok ()⟩) ∧
      ∀ (call : ℕ → String → σ → σ × Option ε) (seen : σ) (k : ℕ) (reason : ε), k ≤ n →
        (∀ i < k, raisedAt call e seen i = none) → raisedAt call e seen k = some reason →
          (e.run recording n).watch (raising call) seen =
            ⟨((e.run recording k).watch unobserved ()).engine, seenBefore call e seen (k + 1),
              .error (.observer reason)⟩ := by
  have hrun : ∀ n, (e.run recording n).watch unobserved () = ⟨e.passed recording n, (), .ok ()⟩ :=
    fun n => watch_run_of_quiet (fun _ _ seen => (seen, none)) () happlies recording n
      fun _ _ => rfl
  refine ⟨fun m => ?_, fun look seen => ?_, fun call seen k reason hk hquiet hraised => ?_⟩
  · rw [hrun n]
    exact (watch_run_add (fun _ _ seen => (seen, none)) () happlies recording n m
      fun _ _ => rfl).symm
  · exact watch_run_of_quiet
      (fun generation buffer seen => (look generation buffer seen, none)) seen happlies recording n
      fun _ _ => rfl
  · rw [hrun k]
    exact watch_run_of_raised call seen happlies recording hk hquiet hraised

/-- Lists its calls, and raises at one buffer. -/
def objecting (generation : ℕ) (buffer : String) (calls : List (ℕ × String)) :
    List (ℕ × String) × Option Unit :=
  (listCalls generation buffer calls, if buffer = "aba" then some () else none)

/-- A run of two steps, in one piece and in two, and up to a callback that raises at its second
call. -/
theorem runs_compose_swapping :
    (∀ buffer, ∃ out, swapping.pattern.apply buffer = .ok out) ∧
      (((swapping.run true 1).watch unobserved ()).engine.run true 1).watch unobserved () =
        (swapping.run true 2).watch unobserved () ∧
      (swapping.run true 2).watch (calling listCalls) [] =
        ⟨{ swapping with
            buffer := "baa"
            generation := 7
            history := #["aab", "aab", "aba"] },
          [(5, "aab"), (6, "aba"), (7, "baa")], .ok ()⟩ ∧
      raisedAt objecting swapping [] 0 = none ∧ raisedAt objecting swapping [] 1 = some () ∧
      (swapping.run true 2).watch (raising objecting) [] =
        ⟨((swapping.run true 1).watch unobserved ()).engine, [(5, "aab"), (6, "aba")],
          .error (.observer ())⟩ := by
  have happlies : ∀ buffer, ∃ out, swapping.pattern.apply buffer = .ok out :=
    fun buffer => ⟨_, rfl⟩
  have hquiet : raisedAt objecting swapping [] 0 = none := by decide
  have hraised : raisedAt objecting swapping [] 1 = some () := by decide
  have hbuffers : (List.range 2).map swapping.bufferAfter = ["aab", "aba"] := by decide
  have hcompose := @runs_compose (List (ℕ × String)) Unit _ _ _ swapping happlies true
  have hcalls := (hcompose 2).2.1 listCalls []
  rw [hbuffers] at hcalls
  refine ⟨happlies, (hcompose 1).1 1, hcalls, hquiet, hraised,
    (hcompose 2).2.2 objecting [] 1 () (by decide) (fun i hi => ?_) hraised⟩
  obtain rfl : i = 0 := by omega
  exact hquiet

end SubstitutionAutomata.Engine
