import SubstitutionAutomata.Command.Life
import SubstitutionAutomata.Life.Reference

/-! The compare command: checks the generations of an engine against the reference automaton. -/

namespace SubstitutionAutomata.Command

open Script

/-- The places, row by row, at which two boards of one shape differ. -/
def differences (a b : Board) : List (Nat × Nat) :=
  ((List.range a.height).flatMap fun y => (List.range a.width).map fun x => (y, x)).filter
    fun (y, x) => a.cell y x != b.cell y x

/-- Compares generation `generation` and the `n` after it. -/
def compareFrom (a : CompareArguments) : Nat → Nat → LifeEngine → Reference → Script
  | 0, _, _, _ =>
    printLine s!"Regex engine matches the reference for {a.generations} generations" fun _ =>
      .exit 0
  | n + 1, generation, e, r =>
    match e.engine.step false with
    | (_, .error fault) => .crash (.template fault)
    | (engine, .ok _) =>
      let e : LifeEngine := ⟨e.layout, engine⟩
      let r := r.step false
      match e.board with
      | .error err => .crash (.life (.layout err))
      | .ok board => match differences board r.board with
        | [] => compareFrom a n (generation + 1) e r
        | place :: places =>
          let count := places.length + 1
          fail (s!"Mismatch at generation {generation}: {count} cells differ, " ++
            s!"first at (row, col) {place}")

def compare (verbose : Bool) (a : CompareArguments) : Script :=
  withRule a.rule fun rule => withBoard a.board fun board =>
    withLifeEngine verbose board rule true fun e =>
      compareFrom a a.generations.toNat 1 e (.ofBoard board rule)

end SubstitutionAutomata.Command
