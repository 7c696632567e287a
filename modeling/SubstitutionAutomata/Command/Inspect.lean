import SubstitutionAutomata.Command.Machine

/-! The inspect command: writes the clauses of a rule or of a machine without running it. -/

namespace SubstitutionAutomata.Command

open Script

/-- The board of a file, or else a blank one. -/
def withGivenBoard (path : Option String) (width height : Int) (next : Board → Script) : Script :=
  match path with
  | some path => withBoard path next
  | none => match Board.blank? height width with
    | .error e => .crash (.size (.negative e))
    | .ok board => next board

def withTarget (verbose : Bool) (target : Target) (next : Pattern → String → Script) : Script :=
  match target with
  | .life rule board width height bordered =>
    withRule rule fun rule => withGivenBoard board width height fun board =>
      withLifeEngine verbose board rule bordered fun e => next e.engine.pattern e.engine.buffer
  | .machine source =>
    withDefinition verbose source fun d _ =>
      match d.pattern with
      | .error e => .crash (.machine (.pattern e))
      | .ok p => logPattern verbose p fun _ => countBlanks source.tapeLength fun _ =>
        next p (sampleTape d source.tapeLength)

def inspect (verbose : Bool) (a : InspectArguments) : Script :=
  withTarget verbose a.target fun p sample =>
    writeInspection p a.output sample a.format fun _ =>
      printLine s!"Wrote {p.size} clauses to {Path.normal a.output}" fun _ => .exit 0

end SubstitutionAutomata.Command
