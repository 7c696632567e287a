import SubstitutionAutomata.Proofs.Life.CellByCell
import SubstitutionAutomata.Proofs.Life.Equivalence

/-! # The reference automaton cell by cell

On a board of cells that are 0 or 1 the reference automaton goes through the generations that are
computed cell by cell, and a recorded run lists all of them. -/

namespace SubstitutionAutomata

variable {b : Board} {rule : Rule}

theorem Board.generation_le_one (hcells : ∀ y x, b.cell y x ≤ 1) (n y x : ℕ) :
    (b.generation rule n).cell y x ≤ 1 := by
  induction n generalizing y x with
  | zero => exact hcells y x
  | succ n ih =>
      rw [generation_succ, next_eq_convolved rule ih]
      exact (b.generation rule n).convolved_le_one rule y x

namespace Reference

/-- The automaton stands at a generation of a board. -/
structure At (b : Board) (rule : Rule) (n : ℕ) (r : Reference) : Prop where
  rule_eq : r.rule = rule
  board_eq : r.board = b.generation rule n

theorem At.step (hcells : ∀ y x, b.cell y x ≤ 1) {n : ℕ} {r : Reference} (h : At b rule n r)
    (recording : Bool) : At b rule (n + 1) (r.step recording) := by
  have hboard : (r.step recording).board = r.board.convolved r.rule := by cases recording <;> rfl
  have hrule : (r.step recording).rule = r.rule := by cases recording <;> rfl
  refine ⟨hrule.trans h.rule_eq, ?_⟩
  rw [hboard, h.board_eq, h.rule_eq,
    ← Board.next_eq_convolved rule (Board.generation_le_one hcells n), Board.generation_succ]

/-- Any calls of the step lead on by as many generations, each recorded or not. -/
theorem At.foldl_step (hcells : ∀ y x, b.cell y x ≤ 1) (recordings : List Bool) {n : ℕ}
    {r : Reference} (h : At b rule n r) :
    At b rule (n + recordings.length) (recordings.foldl Reference.step r) := by
  induction recordings generalizing n r with
  | nil => exact h
  | cons recording recordings ih =>
      have hrest := ih (h.step hcells recording)
      rwa [Nat.add_right_comm] at hrest

theorem steps_eq_foldl (recording : Bool) (n : ℕ) (r : Reference) :
    steps recording n r = (List.replicate n recording).foldl step r := by
  induction n generalizing r with
  | zero => rfl
  | succ n ih => exact ih (r.step recording)

theorem at_steps (rule : Rule) (hcells : ∀ y x, b.cell y x ≤ 1) (recording : Bool) (n : ℕ) :
    At b rule n (steps recording n (ofBoard b rule)) := by
  have hstart : At b rule 0 (ofBoard b rule) := ⟨rfl, rfl⟩
  have hsteps := hstart.foldl_step hcells (List.replicate n recording)
  rwa [List.length_replicate, Nat.zero_add, ← steps_eq_foldl] at hsteps

theorem history_steps (hcells : ∀ y x, b.cell y x ≤ 1) (n : ℕ) :
    (steps true n (ofBoard b rule)).history =
      ((List.range n).map (b.generation rule)).toArray := by
  induction n with
  | zero => rfl
  | succ n ih =>
      have hpush : ((steps true n (ofBoard b rule)).step true).history =
          (steps true n (ofBoard b rule)).history.push (steps true n (ofBoard b rule)).board := rfl
      rw [steps_succ, hpush, ih, (at_steps rule hcells true n).board_eq, List.range_succ,
        List.map_append, List.push_toArray]
      rfl

/-- On a board of cells that are 0 or 1 any number of steps gives the generation that as many steps
cell by cell give, and a recorded run from the start lists this and all generations before it. -/
theorem agrees_cell_by_cell (b : Board) (rule : Rule) (hcells : ∀ y x, b.cell y x ≤ 1) :
    (∀ recordings : List Bool, (recordings.foldl step (ofBoard b rule)).board =
      (fun b => b.next rule)^[recordings.length] b) ∧
      ∀ n, (run (ofBoard b rule) n true).board = (fun b => b.next rule)^[n] b ∧
        (run (ofBoard b rule) n true).history =
          ((List.range (n + 1)).map fun i => (fun b => b.next rule)^[i] b).toArray := by
  constructor
  · intro recordings
    have hstart : At b rule 0 (ofBoard b rule) := ⟨rfl, rfl⟩
    have hsteps := (hstart.foldl_step hcells recordings).board_eq
    rwa [Nat.zero_add] at hsteps
  · intro n
    have hboard := (at_steps rule hcells true n).board_eq
    have hpush : (run (ofBoard b rule) n true).history =
        (steps true n (ofBoard b rule)).history.push (steps true n (ofBoard b rule)).board := rfl
    refine ⟨hboard, ?_⟩
    rw [hpush, hboard, history_steps hcells, List.push_toArray, List.range_succ, List.map_append]
    rfl

/-- A rule by which cells are born without neighbours, with counts that no cell ever has. -/
def bornFromNothing : Rule := ⟨.ofList [0, 3, 12], .ofList [-1, 2]⟩

/-- A single row dies and is born again. -/
theorem agrees_cell_by_cell_row :
    (∀ y x, (Board.ofRows 3 [[1, 0, 1]]).cell y x ≤ 1) ∧
      ([true, false].foldl step (ofBoard (.ofRows 3 [[1, 0, 1]]) bornFromNothing)).board.rows =
        [[1, 1, 1]] ∧
      (run (ofBoard (.ofRows 3 [[1, 0, 1]]) bornFromNothing) 3 true).history.toList.map
        Board.rows = [[[1, 0, 1]], [[0, 0, 0]], [[1, 1, 1]], [[0, 1, 0]]] := by
  have hcells : ∀ y x, (Board.ofRows 3 [[1, 0, 1]]).cell y x ≤ 1 := by
    have hsmall : ∀ y < 1, ∀ x < 3, ([[1, 0, 1]].getD y []).getD x 0 ≤ 1 := by decide
    intro y x
    rw [Board.ofRows, Board.cell_tabulate]
    split
    · rename_i h
      exact hsmall y h.1 x h.2
    · omega
  obtain ⟨hsteps, hruns⟩ := agrees_cell_by_cell (.ofRows 3 [[1, 0, 1]]) bornFromNothing hcells
  refine ⟨hcells, ?_, ?_⟩
  · rw [hsteps]
    decide
  · rw [(hruns 3).2]
    decide

end Reference

end SubstitutionAutomata
