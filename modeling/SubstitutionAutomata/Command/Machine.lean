import SubstitutionAutomata.Command.Life

/-! The machine command: runs a machine until its tape no longer changes, and says how it ended. -/

namespace SubstitutionAutomata.Command

open Script

/-- What a definition logs about itself. -/
def definitionLine (d : Definition) : String :=
  s!"Parsed {d.transitions.length} transitions: {d.states.length} states, " ++
    s!"{d.symbols.length} symbols"

def checkDefinition (verbose : Bool) (result : Except Definition.Error Definition)
    (next : Definition → Script) : Script :=
  match result with
  | .error (.malformed e) => fail s!"Error parsing machine definition: {e.message}"
  | .error .noTransition => .crash (.definition .noTransition)
  | .ok d => debug verbose "machine" (definitionLine d) fun _ => next d

/-- The definition of a source, and its input if it comes with one. Accepting states that are given
replace those of a preset. -/
def withDefinition (verbose : Bool) (source : MachineSource)
    (next : Definition → Option String → Script) : Script :=
  match source.rules with
  | some path =>
    let refuse := fun e : FileError =>
      fail s!"Error reading machine definition '{path}': {e.message}"
    readText path refuse fun text =>
      checkDefinition verbose (Definition.ofText text source.accepting) fun d => next d none
  | none =>
    let preset := (Preset.find? source.preset).getD .duplicate
    let accepting := if source.accepting.isEmpty then preset.accepting else source.accepting
    checkDefinition verbose (preset.definition accepting) fun d => next d (some preset.defaultInput)

/-- The input that inspections of machines show. -/
def sampleInput : String := "TAPEINPUT"

def sampleTape (d : Definition) (tapeLength : Int) : String :=
  Tape.encode ⟨d, tapeLength, Tape.defaultEmptySymbol⟩ sampleInput ""

def logPattern (verbose : Bool) (p : Pattern) (next : Unit → Script) : Script :=
  debug verbose "pattern" s!"Compiled {p.size} machine clauses" next

/-- No index goes further, and none goes below its negative. -/
def indexLimit : Int := 9223372036854775808

/-- Whether the blank cells on one side of a tape can be counted. -/
def isCountable (tapeLength : Int) : Bool :=
  -indexLimit ≤ tapeLength / 2 && tapeLength / 2 < indexLimit

def countBlanks (tapeLength : Int) (next : Unit → Script) : Script :=
  if isCountable tapeLength then next () else .crash (.size .uncountable)

/-- Checks a content, strictly if asked, and then its tape. -/
def checkTape (tape : Tape) (content : String) (strict : Bool) (next : Unit → Script) : Script :=
  match if strict then tape.validate content else .ok () with
  | .error e => fail s!"Error preparing machine: {e.message}"
  | .ok () => countBlanks tape.length next

/-- The engine of a tape with a content; an expression that cannot be read is not reported. -/
def withMachineEngine (verbose : Bool) (tape : Tape) (content : String) (strict : Bool)
    (next : MachineEngine → Script) : Script :=
  checkTape tape content strict fun _ =>
    match MachineEngine.ofContent tape content strict with
    | .error (.pattern (.expression e)) => .crash (.machine (.pattern (.expression e)))
    | .error e => fail s!"Error preparing machine: {e.message}"
    | .ok e => logPattern verbose e.engine.pattern fun _ => next e

/-- The last line of a run and its exit code: 2 for a machine that is stuck. -/
def verdictLine (a : MachineArguments) (halted : Bool) (v : MachineEngine.Verdict) : String × Nat :=
  if !halted then
    let limit := (a.maxSteps.map toString).getD "None"
    (s!"Did not halt within {limit} steps (state {v.state})", 0)
  else match v.accepted with
    | none => (s!"Halted in {v.state} (no accept states declared, cannot tell halt from stuck)", 0)
    | some true => (s!"Accepted in {v.state}", 0)
    | some false => (s!"Stuck in {v.state} (not an accept state)", 2)

def reportLine (r : Engine.Report) : String :=
  match r.unchanged with
  | some count => s!"Fixpoint after {r.steps} steps ({count} replacements)"
  | none => s!"Stopped after {r.steps} steps without reaching a fixpoint"

def conclude (verbose : Bool) (a : MachineArguments) (initial : String) (e : MachineEngine)
    (r : Engine.Report) : Script :=
  debug verbose "engine" (reportLine r) fun _ =>
    match e.verdict r.halted with
    | .error err => .crash (.machine (.tape err))
    | .ok v =>
      let (line, code) := verdictLine a r.halted v
      let output := e.engine.buffer
      .print s!"\nInput: {initial}\nOutput: {output}\nSteps: {r.steps}\n{line}\n" fun _ =>
        .exit code

/-- Prints the tape at every visit of a run, unless only the last one is asked for. -/
def followRun (verbose : Bool) (a : MachineArguments) (tape : Tape) (initial : String) :
    Engine.Course Engine.Report → Script
  | .done e report => conclude verbose a initial ⟨tape, e⟩ report
  | .broken _ fault => .crash (.template fault)
  | .visit e next =>
    let rest := fun _ : Unit => pauseIf a.pause (fun _ => .exit 0) fun _ =>
      followRun verbose a tape initial (next ())
    if a.quiet then rest () else printLine e.buffer rest

def machine (verbose : Bool) (a : MachineArguments) : Script :=
  withDefinition verbose a.source fun d defaultInput =>
    match a.input <|> defaultInput with
    | none => fail "No input given: use --input with --rules"
    | some content =>
      let tape : Tape := ⟨d, a.source.tapeLength, Tape.defaultEmptySymbol⟩
      withMachineEngine verbose tape content a.strict fun e =>
        inspectIf a.inspect e.engine.pattern (sampleTape d a.source.tapeLength) fun _ =>
          followRun verbose a tape e.engine.buffer
            (e.engine.settle (Engine.generations a.maxSteps) 0)

end SubstitutionAutomata.Command
