import SubstitutionAutomata.Proofs.Engine.Fixpoint
import SubstitutionAutomata.Proofs.Machine.LockStep
import SubstitutionAutomata.Proofs.Machine.Start
import Mathlib.Logic.Relation

/-! # Runs until nothing changes

An engine that searches for a fixpoint follows the run of the table. If the moves of the table lead
to a configuration without a move, the engine halts there, whatever larger number of steps it may
take. -/

namespace SubstitutionAutomata

variable {d : Definition} {c c' : Configuration}

namespace Configuration

/-- The table moves from one configuration to another. -/
def Reaches (d : Definition) : Configuration → Configuration → Prop :=
  Relation.ReflTransGen fun c c' => c.step? d = some c'

/-- The table makes so many moves. -/
def Moves (d : Definition) (n : ℕ) (c : Configuration) : Prop :=
  ∀ m < n, ((c.after d m).step? d).isSome = true

/-- After so many moves the table has none. -/
structure HaltsAfter (d : Definition) (n : ℕ) (c : Configuration) : Prop where
  moves : c.Moves d n
  stuck : (c.after d n).step? d = none

theorem moves_succ_iff (n : ℕ) :
    c.Moves d (n + 1) ↔ ∃ c', c.step? d = some c' ∧ c'.Moves d n := by
  constructor
  · intro h
    obtain ⟨c', hmove⟩ := Option.isSome_iff_exists.mp (h 0 (Nat.zero_lt_succ n))
    rw [after] at hmove
    refine ⟨c', hmove, fun m hm => ?_⟩
    simpa [after, hmove] using h (m + 1) (Nat.succ_lt_succ hm)
  · rintro ⟨c', hmove, h⟩ m hm
    cases m with
    | zero => simp [after, hmove]
    | succ m => simpa [after, hmove] using h m (Nat.lt_of_succ_lt_succ hm)

theorem exists_moves_of_reaches (h : Reaches d c c') : ∃ n, c.Moves d n ∧ c.after d n = c' := by
  induction h using Relation.ReflTransGen.head_induction_on with
  | refl => exact ⟨0, fun m hm => absurd hm (Nat.not_lt_zero m), rfl⟩
  | @head c c₁ hmove _ ih =>
      obtain ⟨n, hmoves, hafter⟩ := ih
      exact ⟨n + 1, (moves_succ_iff n).mpr ⟨c₁, hmove, hmoves⟩, by simp [after, hmove, hafter]⟩

/-- A run goes through the moves of the table. -/
theorem run_of_moves {n : ℕ} (h : c.Moves d n) (limit steps : ℕ) :
    c.run d (n + limit) steps = (c.after d n).run d limit (steps + n) := by
  induction n generalizing c steps with
  | zero => rw [Nat.zero_add, after, Nat.add_zero]
  | succ n ih =>
      obtain ⟨c₁, hmove, hmoves⟩ := (moves_succ_iff n).mp h
      rw [Nat.add_right_comm, run, hmove]
      simp only [ih hmoves, after, hmove, Option.getD_some]
      rw [Nat.add_assoc, Nat.add_comm 1]

/-- Within any larger limit a run ends where the table has no move. -/
theorem HaltsAfter.run_eq {n limit : ℕ} (h : c.HaltsAfter d n) (hlimit : n < limit) :
    c.run d limit 0 = (c.after d n, n) := by
  obtain ⟨rest, rfl⟩ := Nat.exists_eq_add_of_lt hlimit
  rw [Nat.add_assoc, run_of_moves h.moves, run, h.stuck, Nat.zero_add]

theorem WellFormed.after (hd : ∀ t ∈ d.transitions, t.WellFormed) (hc : c.WellFormed) (n : ℕ) :
    (c.after d n).WellFormed := by
  induction n generalizing c with
  | zero => exact hc
  | succ n ih => exact ih (hc.next hd)

/-- The head moves to another cell. -/
theorem length_left_of_step? (hd : ∀ t ∈ d.transitions, t.WellFormed) (h : c.step? d = some c') :
    c'.left.toList.length ≠ c.left.toList.length := by
  obtain ⟨t, -, hmoves⟩ := exists_movesBy_of_step? h
  have hposition := position_of_move? (hd t hmoves.mem) hmoves.move
  rw [position, position, ← String.length_toList, ← String.length_toList] at hposition
  omega

/-- Configurations with the head on different cells have different buffers. -/
theorem encodeHead_ne (tape : Tape) (hc : c.WellFormed) (hc' : c'.WellFormed)
    (h : c'.left.toList.length ≠ c.left.toList.length) :
    tape.encodeHead c' ≠ tape.encodeHead c := by
  intro heq
  have htext := congrArg String.toList heq
  rw [toList_encodeHead, toList_encodeHead, text, text, recordText, recordText, List.cons_append,
    List.cons_append] at htext
  have hleft := ((append_cons_prefix_iff _ _ _ _ hc'.left hc.left).mp
    ⟨[], by rw [List.append_nil, htext]⟩).1
  exact h (congrArg List.length hleft)

/-- A move of the table changes the buffer. -/
theorem encodeHead_after_ne (tape : Tape) (hd : ∀ t ∈ d.transitions, t.WellFormed)
    (hc : c.WellFormed) {n : ℕ} (h : ((c.after d n).step? d).isSome = true) :
    tape.encodeHead (c.after d (n + 1)) ≠ tape.encodeHead (c.after d n) := by
  obtain ⟨c', hmove⟩ := Option.isSome_iff_exists.mp h
  rw [after_succ, hmove, Option.getD_some]
  have hn := hc.after hd n
  exact encodeHead_ne tape hn (hn.step? hd hmove) (length_left_of_step? hd hmove)

end Configuration

namespace Engine

open SubstitutionAutomata.Configuration

variable (tape : Tape) {p : Pattern}

/-- The buffers of an engine are those of the run of the table. -/
theorem apply_after (hd : ∀ t ∈ tape.definition.transitions, t.WellFormed)
    (happly : tape.Makes p Configuration.WellFormed (Configuration.step? tape.definition))
    (hc : c.WellFormed) (n : ℕ) :
    p.apply (tape.encodeHead (c.after tape.definition n)) =
      .ok (tape.encodeHead (c.after tape.definition (n + 1)),
        if ((c.after tape.definition n).step? tape.definition).isSome then 1 else 0) := by
  rw [after_succ]
  exact happly _ (hc.after hd n)

/-- A search for a fixpoint whose limit the moves of the table use up. -/
theorem settle_of_moves (hd : ∀ t ∈ tape.definition.transitions, t.WellFormed)
    (happly : tape.Makes p Configuration.WellFormed (Configuration.step? tape.definition))
    {n : ℕ} (h : c.Moves tape.definition n) (hc : c.WellFormed) (e : Engine)
    (hpattern : e.pattern = p) (hbuffer : e.buffer = tape.encodeHead c) :
    (e.settle n 0).watch unobserved () =
      ⟨{ e with
          buffer := tape.encodeHead (c.after tape.definition n),
          generation := e.generation + n }, (), .ok ⟨n, none⟩⟩ := by
  subst hpattern
  exact watch_settle_of_limit (b := fun i => tape.encodeHead (c.after tape.definition i))
    (fun _ _ seen => seen) () n hbuffer.symm (fun i _ => apply_after tape hd happly hc i)
    fun i hi => encodeHead_after_ne tape hd hc (h i hi)

/-- Within any larger limit a search for a fixpoint ends where the table has no move, with one more
generation than there were moves. -/
theorem settle_of_haltsAfter (hd : ∀ t ∈ tape.definition.transitions, t.WellFormed)
    (happly : tape.Makes p Configuration.WellFormed (Configuration.step? tape.definition))
    {n limit : ℕ} (h : c.HaltsAfter tape.definition n) (hc : c.WellFormed) (e : Engine)
    (hpattern : e.pattern = p) (hbuffer : e.buffer = tape.encodeHead c) (hlimit : n < limit) :
    (e.settle limit 0).watch unobserved () =
      ⟨{ e with
          buffer := tape.encodeHead (c.after tape.definition n),
          generation := e.generation + n + 1 }, (), .ok ⟨n, some 0⟩⟩ := by
  subst hpattern
  have hfixed : c.after tape.definition (n + 1) = c.after tape.definition n := by
    rw [after_succ, h.stuck, Option.getD_none]
  have hsettle := watch_settle_of_fixpoint
    (b := fun i => tape.encodeHead (c.after tape.definition i)) (fun _ _ seen => seen) ()
    hbuffer.symm (fun i _ => apply_after tape hd happly hc i)
    (fun i hi => encodeHead_after_ne tape hd hc (h.moves i hi))
    (congrArg tape.encodeHead hfixed) hlimit
  rw [h.stuck] at hsettle
  exact hsettle

end Engine

open SubstitutionAutomata.Configuration in
/-- An engine whose table leads to a configuration without a move halts and shows it. -/
theorem MachineEngine.exists_settled {lines accepting : List String}
    (hlines : Definition.ofLines lines accepting = .ok d) (hdirections : d.SharesDirections)
    (length : Int) (emptySymbol content : String)
    (hc : (Tape.start ⟨d, length, emptySymbol⟩ content d.initialState).WellFormed)
    (hreaches : Reaches d (Tape.start ⟨d, length, emptySymbol⟩ content d.initialState) c')
    (hstuck : c'.step? d = none) (hcursor : c'.cursor ≠ "\n") :
    ∃ e final report, ofContent ⟨d, length, emptySymbol⟩ content false = .ok e ∧
      report.halted = true ∧
      (∀ limit, report.steps < limit →
        (e.engine.settle limit 0).watch Engine.unobserved () = ⟨final, (), .ok report⟩) ∧
      (MachineEngine.mk e.tape final).head = .ok c' ∧
      (MachineEngine.mk e.tape final).verdict report.halted =
        .ok ⟨c'.state, d.isAccepting c'.state⟩ := by
  have hd := Definition.wellFormed_of_ofLines hlines
  obtain ⟨p, hp, happly⟩ := Tape.exists_pattern_apply ⟨d, length, emptySymbol⟩ hd hdirections
  obtain ⟨n, hmoves, hafter⟩ := exists_moves_of_reaches hreaches
  have hhalts := HaltsAfter.mk hmoves (hafter ▸ hstuck)
  have hc' := hc.after hd n
  rw [hafter] at hc'
  let tape : Tape := ⟨d, length, emptySymbol⟩
  let start := Engine.ofBuffer p (tape.encodeHead (tape.start content d.initialState))
  let final : Engine :=
    { start with buffer := tape.encodeHead c', generation := start.generation + n + 1 }
  have hhead : (MachineEngine.mk tape final).head = .ok c' := tape.decode_encodeHead hc' hcursor
  refine ⟨⟨tape, start⟩, final, ⟨n, some 0⟩, ofContent_eq_ok hp, rfl, ?_, hhead, ?_⟩
  · intro limit hlimit
    rw [Engine.settle_of_haltsAfter tape hd happly hhalts hc start rfl rfl hlimit, hafter]
  · rw [verdict, hhead]
    rfl

end SubstitutionAutomata
