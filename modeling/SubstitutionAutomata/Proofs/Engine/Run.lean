import SubstitutionAutomata.Engine.Basic
import Mathlib.Data.Nat.Notation

/-! # Generations of an engine

Whatever makes the passes, a step is one pass: it counts a generation if the pass succeeds, and adds
nothing but a record if the pass fails. -/

namespace SubstitutionAutomata.Engine

open Regex

variable {π φ : Type} [Pass π φ] {e e' : Engine π} {recording : Bool} {count : ℕ}

/-! ## One step -/

/-- The engine that a step starts from, its buffer recorded if steps are recorded. -/
def recordIf (recording : Bool) (e : Engine π) : Engine π := if recording then e.record else e

@[simp] theorem pattern_recordIf (recording : Bool) (e : Engine π) :
    (e.recordIf recording).pattern = e.pattern := by
  cases recording <;> rfl

@[simp] theorem buffer_recordIf (recording : Bool) (e : Engine π) :
    (e.recordIf recording).buffer = e.buffer := by
  cases recording <;> rfl

@[simp] theorem generation_recordIf (recording : Bool) (e : Engine π) :
    (e.recordIf recording).generation = e.generation := by
  cases recording <;> rfl

theorem history_recordIf_eq_iff (recording : Bool) (e : Engine π) :
    (e.recordIf recording).history = e.history ↔ recording = false := by
  cases recording <;> simp [recordIf, record]

theorem step_of_apply {buffer : String} (h : Pass.apply e.pattern e.buffer = .ok (buffer, count)) :
    e.step recording =
      ({ e.recordIf recording with buffer := buffer, generation := e.generation + 1 },
        .ok count) := by
  cases recording <;> simp [step, recordIf, record, h]

theorem step_of_apply_error {fault : φ} (h : Pass.apply e.pattern e.buffer = .error fault) :
    e.step recording = (e.recordIf recording, .error fault) := by
  cases recording <;> simp [step, recordIf, record, h]

/-- An unrecorded step of a pattern. -/
theorem step_eq_of_apply {e : Engine} {buffer : String}
    (h : e.pattern.apply e.buffer = .ok (buffer, count)) :
    e.step false =
      ({ e with buffer := buffer, generation := e.generation + 1 }, .ok count) :=
  step_of_apply h

/-- A step fails only if its pass does, and then nothing but a record is new. -/
theorem step_eq_error_iff {fault : φ} :
    e.step recording = (e', .error fault) ↔
      Pass.apply e.pattern e.buffer = .error fault ∧ e' = e.recordIf recording := by
  cases happly : Pass.apply e.pattern e.buffer with
  | ok out => simp [step_of_apply happly]
  | error fault' => simp [step_of_apply_error happly, and_comm, eq_comm]

theorem pattern_step (e : Engine π) (recording : Bool) :
    (e.step recording).1.pattern = e.pattern := by
  cases happly : Pass.apply e.pattern e.buffer with
  | ok out => rw [step_of_apply happly, pattern_recordIf]
  | error fault => rw [step_of_apply_error happly, pattern_recordIf]

/-- An engine counts its generations. -/
theorem generation_of_step (h : e.step recording = (e', .ok count)) :
    e'.generation = e.generation + 1 := by
  cases happly : Pass.apply e.pattern e.buffer with
  | ok out =>
      rw [step_of_apply happly] at h
      rw [← (Prod.mk.inj h).1]
  | error fault =>
      rw [step_of_apply_error happly] at h
      cases h

/-! ## Several generations -/

/-- The engine after so many generations. -/
def after : ℕ → Engine π → Engine π
  | 0, e => e
  | n + 1, e => after n (e.step false).1

theorem after_succ_eq_step (n : ℕ) (e : Engine π) :
    e.after (n + 1) = ((e.after n).step false).1 := by
  induction n generalizing e with
  | zero => rfl
  | succ n ih => exact ih (e.step false).1

theorem pattern_after (n : ℕ) (e : Engine π) : (e.after n).pattern = e.pattern := by
  induction n generalizing e with
  | zero => rfl
  | succ n ih => rw [after, ih, pattern_step]

theorem run_succ_of_step (n : ℕ) (h : e.step recording = (e', .ok count)) :
    e.run recording (n + 1) = .visit e fun _ => e'.run recording n := by
  rw [run]
  simp only [h]

/-- A run starts with a visit. -/
theorem exists_run_eq_visit (recording : Bool) (n : ℕ) (e : Engine π) :
    ∃ next, e.run recording n = .visit e next := by
  cases n with
  | zero => exact ⟨_, rfl⟩
  | succ n => exact ⟨_, rfl⟩

/-! ## Limits -/

/-- Looks at nothing and never stops a run. -/
def unobserved : Observer Unit Empty π := fun _ seen => (seen, none)

/-- The numbers of generations that an optional limit stands for, where so many steps are made: the
limit itself, or without one any number above the steps. -/
def Limits (limit? : Option Int) (steps limit : ℕ) : Prop :=
  match limit? with
  | some m => limit = generations (some m)
  | none => steps < limit

theorem Limits.lt {limit? : Option Int} {steps limit : ℕ} (h : Limits limit? steps limit)
    (hbelow : ∀ m : Int, limit? = some m → (steps : Int) < m) : steps < limit := by
  cases limit? with
  | none => exact h
  | some m =>
      have hm := hbelow m rfl
      have hlimit : limit = m.toNat := h
      omega

end SubstitutionAutomata.Engine
