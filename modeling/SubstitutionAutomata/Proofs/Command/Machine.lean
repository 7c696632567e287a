import SubstitutionAutomata.Proofs.Command.Arguments
import SubstitutionAutomata.Proofs.Command.Outcome
import SubstitutionAutomata.Proofs.Machine.Inert

/-! # How a machine command ends

A quiet machine command on a file of rules ends with an exit code and says why, unless the file is
no text or is empty, the tape is too long to be counted, or the tape cannot be read back at the end.
-/

namespace SubstitutionAutomata.Command

open Script Text

/-- How a command ends that reports what happened: normally, with a message after exit code 1, or
stuck after exit code 2. -/
inductive Reports {φ : Type} (before : Transcript) : Transcript × Ending (Cause φ) → Prop where
  | finished (after : Transcript) : Reports before (after, .exit 0)
  | malformed (after : Transcript) (reason : String)
      (output : after.output =
        before.output ++ s!"Error parsing machine definition: {reason}\n") :
      Reports before (after, .exit 1)
  | unprepared (after : Transcript) (reason : String)
      (output : after.output = before.output ++ s!"Error preparing machine: {reason}\n") :
      Reports before (after, .exit 1)
  | stuck (after : Transcript) (report state : String)
      (output : after.output =
        before.output ++ (report ++ s!"Stuck in {state} (not an accept state)\n")) :
      Reports before (after, .exit 2)

theorem Reports.of_output {φ : Type} {before before' : Transcript}
    {r : Transcript × Ending (Cause φ)} (h : Reports before r)
    (houtput : before.output = before'.output) : Reports before' r := by
  cases h with
  | finished after => exact .finished after
  | malformed after reason output => exact .malformed after reason (houtput ▸ output)
  | unprepared after reason output => exact .unprepared after reason (houtput ▸ output)
  | stuck after report state output => exact .stuck after report state (houtput ▸ output)

variable {a : MachineArguments} (verbose : Bool) (tape : Tape) (initial : String)

/-! ## The run and its report -/

/-- A quiet run without pauses goes straight to its report, if its generations succeed. -/
theorem followRun_settle (hquiet : a.quiet = true) (hpause : a.pause.isZero = true)
    {kind : Engine → Prop}
    (hstep : ∀ e, kind e → ∃ e' count, e.step false = (e', .ok count) ∧ kind e')
    (limit steps : ℕ) {e : Engine} (he : kind e) :
    ∃ e' report, kind e' ∧ followRun verbose a tape initial (e.settle limit steps) =
      conclude verbose a initial ⟨tape, e'⟩ report := by
  induction limit generalizing steps e with
  | zero => exact ⟨e, _, he, rfl⟩
  | succ limit ih =>
      obtain ⟨e', count, hnext, he'⟩ := hstep e he
      simp only [Engine.settle, followRun, hquiet, pauseIf, hpause, if_true, hnext]
      by_cases hdone : count = 0 ∨ e'.buffer = e.buffer
      · exact ⟨e', _, he', by rw [if_pos hdone, followRun]⟩
      · obtain ⟨last, report, hlast, hrun⟩ := ih (steps + 1) he'
        exact ⟨last, report, hlast, by rw [if_neg hdone, hrun]⟩

variable {φ : Type} (system : System φ) (t : Transcript)

/-- The report of a run is its verdict, if the tape reads back. -/
theorem reports_conclude {e : Engine} (report : Engine.Report) {c : Configuration}
    (hhead : tape.decode e.buffer = .ok c) :
    Reports t ((conclude verbose a initial ⟨tape, e⟩ report).run system t) := by
  have hread : (MachineEngine.mk tape e).head = .ok c := hhead
  rw [conclude, run_debug, MachineEngine.verdict, hread]
  simp only [Script.run, verdictLine]
  cases report.halted with
  | false => exact .finished _
  | true =>
      cases tape.definition.isAccepting c.state with
      | none => exact .finished _
      | some accepted =>
          cases accepted with
          | true => exact .finished _
          | false =>
              refine .stuck _ s!"\nInput: {initial}\nOutput: {e.buffer}\nSteps: {report.steps}\n"
                c.state ?_
              simp [toString, String.append_assoc]

theorem conclude_of_error {e : Engine} (report : Engine.Report) {err : Tape.Error}
    (hhead : tape.decode e.buffer = .error err) :
    ((conclude verbose a initial ⟨tape, e⟩ report).run system t).2 =
      .crash (.own (.machine (.tape err))) := by
  have hread : (MachineEngine.mk tape e).head = .error err := hhead
  rw [conclude, run_debug, MachineEngine.verdict, hread]
  rfl

/-- A quiet run of a machine reports what happened. On a content that may make its tape unreadable,
the command may end without a report instead. -/
theorem followRun_ends {d : Definition} {lines accepting : List String}
    (hlines : Definition.ofLines lines accepting = .ok d) (hquiet : a.quiet = true)
    (hpause : a.pause.isZero = true) (length : Int) (content : String) {e : MachineEngine}
    (hengine : MachineEngine.ofContent ⟨d, length, Tape.defaultEmptySymbol⟩ content false = .ok e)
    (limit : ℕ) :
    let r := (followRun verbose a ⟨d, length, Tape.defaultEmptySymbol⟩ initial
      (e.engine.settle limit 0)).run system t
    Reports t r ∨ ¬ d.Admits content ∧ ∃ count, count ≠ 1 ∧
      r.2 = .crash (.own (.machine (.tape (.headCount count)))) := by
  have hd := Definition.wellFormed_of_ofLines hlines
  let tape : Tape := ⟨d, length, Tape.defaultEmptySymbol⟩
  obtain ⟨p, hp, happly⟩ := tape.exists_pattern_leftmost_of_intact hd
  obtain rfl := Except.ok.inj ((MachineEngine.ofContent_eq_ok hp).symm.trans hengine)
  by_cases hcontent : d.Admits content
  · left
    -- The last buffer shows a configuration, so it reads back.
    let shows : Engine → Prop := fun e => e.pattern = p ∧
      ∃ c, c.Keeps d (length / 2).toNat content.toList ∧ e.buffer = tape.encodeHead c
    have hstep : ∀ e, shows e → ∃ e' count, e.step false = (e', .ok count) ∧ shows e' := by
      rintro e ⟨hpattern, c, hc, hbuffer⟩
      exact ⟨_, _, happly.step_eq hpattern hbuffer hc.intact, hpattern, _, hc.leftmost hd, rfl⟩
    obtain ⟨last, report, ⟨-, c, hc, hbuffer⟩, hrun⟩ :=
      followRun_settle verbose tape initial hquiet hpause hstep limit 0
        (e := Engine.ofBuffer p (tape.encodeHead (tape.start content d.initialState)))
        ⟨rfl, _, Tape.keeps_start length hd hcontent, rfl⟩
    rw [hrun]
    apply reports_conclude
    rw [hbuffer]
    exact tape.decode_encodeHead_of_intact hc.intact hc.cursor
  · have hstep : ∀ e : Engine, e.pattern = p →
        ∃ e' count, e.step false = (e', .ok count) ∧ e'.pattern = p := by
      rintro e rfl
      obtain ⟨⟨buffer, count⟩, hnext⟩ := Definition.exists_apply hp e.buffer
      exact ⟨_, _, Engine.step_eq_of_apply hnext, rfl⟩
    obtain ⟨last, report, -, hrun⟩ := followRun_settle verbose tape initial hquiet hpause hstep
      limit 0 (e := Engine.ofBuffer p (tape.encodeHead (tape.start content d.initialState))) rfl
    rw [hrun]
    cases hhead : tape.decode last.buffer with
    | ok c => exact .inl (reports_conclude verbose tape initial system t report hhead)
    | error err =>
        obtain ⟨count, hcount, rfl⟩ := Tape.exists_headCount_of_decode hhead
        exact .inr ⟨hcontent, count, hcount,
          conclude_of_error verbose tape initial system t report hhead⟩

/-- A tape is refused, or is too long to be counted, or is there. -/
theorem run_checkTape (content : String) (strict : Bool) (next : Unit → Script) :
    Reports t ((checkTape tape content strict next).run system t) ∨
      isCountable tape.length = false ∧
        (checkTape tape content strict next).run system t =
          (t, .crash (.own (.size .uncountable))) ∨
      checkTape tape content strict next = next () := by
  rw [checkTape]
  cases (if strict then tape.validate content else .ok ()) with
  | error e =>
      left
      simp only [run_fail]
      exact .unprepared _ e.message (by simp [toString, String.append_assoc])
  | ok =>
      right
      cases hcount : isCountable tape.length with
      | false => exact .inl ⟨rfl, by simp [countBlanks, hcount, Script.run]⟩
      | true => exact .inr (by simp [countBlanks, hcount])

/-- The same holds from the preparation of the engine on, where a strict check admits the content
or refuses it, and a tape may be too long to be counted. -/
theorem withMachineEngine_ends {d : Definition} {lines accepting : List String}
    (hlines : Definition.ofLines lines accepting = .ok d) (hquiet : a.quiet = true)
    (hpause : a.pause.isZero = true) (length : Int) (content : String) (limit : ℕ) :
    let r := (withMachineEngine verbose ⟨d, length, Tape.defaultEmptySymbol⟩ content a.strict
      fun e => followRun verbose a ⟨d, length, Tape.defaultEmptySymbol⟩ e.engine.buffer
        (e.engine.settle limit 0)).run system t
    Reports t r ∨
      isCountable length = false ∧ r.2 = .crash (.own (.size .uncountable)) ∨
      a.strict = false ∧ ¬ d.Admits content ∧ ∃ count, count ≠ 1 ∧
        r.2 = .crash (.own (.machine (.tape (.headCount count)))) := by
  have hd := Definition.wellFormed_of_ofLines hlines
  obtain ⟨p, hp, -⟩ := d.exists_pattern
  let tape : Tape := ⟨d, length, Tape.defaultEmptySymbol⟩
  have hengine := @MachineEngine.ofContent_eq_ok d p hp length Tape.defaultEmptySymbol content
  rw [withMachineEngine]
  rcases run_checkTape tape system t content a.strict _ with
    hreports | ⟨hcount, hcrash⟩ | hchecked
  · exact .inl hreports
  · exact .inr (.inl ⟨hcount, by rw [hcrash]⟩)
  rw [hchecked]
  rcases MachineEngine.ofContent_cases hp length Tape.defaultEmptySymbol content a.strict with
    ⟨e, hrefused⟩ | ⟨hstart, hvalid⟩
  · left
    simp only [hrefused, run_fail]
    exact .unprepared _ (MachineEngine.Error.tape e).message (by
      simp [toString, String.append_assoc])
  · simp only [hstart, hengine, logPattern, run_debug]
    rcases followRun_ends verbose _ system _ hlines hquiet hpause length content hengine
      limit with hreports | ⟨hcontent, hcrash⟩
    · exact .inl (hreports.of_output (by simp))
    · refine .inr (.inr ⟨?_, hcontent, hcrash⟩)
      by_contra hstrict
      exact hcontent (Tape.admits_of_validate hd (hvalid (by simpa using hstrict)))

/-- A machine command on a file of rules with a limit to its steps, quiet and without pauses or an
inspection, ends with an exit code and says why. It ends without a report only if the bytes of the
file are no text or there are none, if the tape is too long to be counted, or if the content is not
strictly checked and not admitted, so that a number of head records other than one may be read at
the end. -/
theorem machine_ends {φ : Type} (system : System φ) {arguments : List String} {verbose : Bool}
    {a : MachineArguments} (hread : readArguments arguments = .ok (verbose, some (.machine a)))
    {path content : String} (hrules : a.source.rules = some path) (hinput : a.input = some content)
    {n : ℤ} (hsteps : a.maxSteps = some n) (hquiet : a.quiet = true)
    (hpause : a.pause.isZero = true) (hinspect : a.inspect = none) (t : Transcript)
    {bytes : List UInt8} (hbytes : t.store.read path = .ok bytes) :
    let r := (script arguments).run system t
    (∀ fault, decodeUtf8 bytes = .error fault → r = (t, .crash (.own (.encoding fault)))) ∧
      (decodeUtf8 bytes = .ok "" → r = (t, .crash (.own (.definition .noTransition)))) ∧
      ∀ text, decodeUtf8 bytes = .ok text → text ≠ "" →
        Reports t r ∨ ∃ d, Definition.ofText text a.source.accepting = .ok d ∧
          (isCountable a.source.tapeLength = false ∧ r.2 = .crash (.own (.size .uncountable)) ∨
            a.strict = false ∧ ¬ d.Admits content ∧ ∃ count, count ≠ 1 ∧
              r.2 = .crash (.own (.machine (.tape (.headCount count))))) := by
  have hscript : script arguments = machine verbose a := by rw [script, hread]
  simp only [hscript, machine, withDefinition, hrules, run_readText system t hbytes]
  refine ⟨fun fault hdecode => by rw [hdecode], fun hdecode => ?_, fun text hdecode htext => ?_⟩
  · have hempty := (Definition.ofText_eq_noTransition_iff "" a.source.accepting).mpr rfl
    simp only [hdecode, hempty, checkDefinition]
    rfl
  · simp only [hdecode]
    cases hdefinition : Definition.ofText text a.source.accepting with
    | error e =>
        cases e with
        | noTransition =>
            exact absurd ((Definition.ofText_eq_noTransition_iff _ _).mp hdefinition) htext
        | malformed e =>
            left
            simp only [checkDefinition, run_fail]
            exact .malformed _ e.message (by simp [toString, String.append_assoc])
    | ok d =>
        simp only [checkDefinition, run_debug, hinput, Option.orElse_eq_orElse,
          Option.orElse_some, hinspect, inspectIf, hsteps]
        rcases withMachineEngine_ends verbose system (t.debugged verbose "machine"
          (definitionLine d)) hdefinition hquiet hpause a.source.tapeLength content
          (Engine.generations (some n)) with hreports | hcrash
        · exact .inl (hreports.of_output (by simp))
        · exact .inr ⟨d, rfl, hcrash⟩

/-! ## Command lines -/

/-- What may stand at the end of a command line for a file of rules, and what it is read as:
accepting states, the length of the tape and a strict check of the content. -/
inductive TapeOptions : List String → List (String × Value) → Prop where
  | nil : TapeOptions [] []
  | accept {arguments : List String} {entries : List (String × Value)} (state : String)
      (rest : TapeOptions arguments entries) :
      TapeOptions (Setting.text ⟨"--accept", state⟩ :: arguments)
        (("--accept", .text state) :: entries)
  | length {arguments : List String} {entries : List (String × Value)} {numeral : String} {n : ℤ}
      (hn : int? numeral = some n) (rest : TapeOptions arguments entries) :
      TapeOptions (Setting.text ⟨"--tape-length", numeral⟩ :: arguments)
        (("--tape-length", .integer n) :: entries)
  | strict {arguments : List String} {entries : List (String × Value)}
      (rest : TapeOptions arguments entries) :
      TapeOptions ("--strict" :: arguments) (("--strict", .flag) :: entries)

theorem TapeOptions.reads {arguments : List String} {entries : List (String × Value)}
    (h : TapeOptions arguments entries) : machineGrammar.Reads arguments entries := by
  induction h with
  | nil => exact .nil
  | accept state _ ih =>
      exact .setting (Grammar.accepts_of_find? (o := ⟨["--accept"], .text⟩) (by decide) rfl rfl rfl)
        ih
  | @length _ _ numeral n hn _ ih =>
      have hread : Grammar.readValue ⟨["--tape-length"], .integer⟩ numeral = .ok (.integer n) := by
        simp [Grammar.readValue, hn]
      exact .setting (Grammar.accepts_of_find? (by decide) rfl rfl hread) ih
  | strict _ ih =>
      exact .flag (Grammar.names_of_find? (o := ⟨["--strict"], .flag⟩) (by decide) rfl) rfl ih

theorem TapeOptions.keys {arguments : List String} {entries : List (String × Value)}
    (h : TapeOptions arguments entries) :
    ∀ entry ∈ entries, entry.1 ∈ ["--accept", "--tape-length", "--strict"] := by
  induction h with
  | nil => simp
  | accept _ _ ih | length _ _ ih | strict _ ih =>
      exact List.forall_mem_cons.mpr ⟨by simp, ih⟩

/-- The command lines on a file of rules are read as quiet machine commands with a limit. -/
theorem exists_readArguments_rules {path : String} (hpath : path.startsWith "-" = false)
    (hempty : path.isEmpty = false) (content : String) {numeral : String}
    (hnumeral : numeral.startsWith "-" = false) {n : ℤ} (hn : int? numeral = some n)
    {options : List String} {entries : List (String × Value)} (h : TapeOptions options entries) :
    ∃ a, readArguments ("machine" :: "--rules" :: path :: Setting.text ⟨"--input", content⟩ ::
          "--max-steps" :: numeral :: "-q" :: options) = .ok (false, some (.machine a)) ∧
      a.source.rules = some path ∧ a.input = some content ∧ a.maxSteps = some n ∧
      a.quiet = true ∧ a.pause.isZero = true ∧ a.inspect = none := by
  have hsteps : Grammar.readValue ⟨["--max-steps"], .integer⟩ numeral = .ok (.integer n) := by
    simp [Grammar.readValue, hn]
  have hinput : machineGrammar.Accepts ⟨"--input", content⟩ ("--input", .text content) :=
    Grammar.accepts_of_find? (o := ⟨["-i", "--input"], .text⟩) (by decide) rfl rfl rfl
  let given : List (String × Value) := [("--rules", .text path), ("--input", .text content),
    ("--max-steps", .integer n), ("--quiet", .flag)]
  have hreads : machineGrammar.Reads ("--rules" :: path :: Setting.text ⟨"--input", content⟩ ::
      "--max-steps" :: numeral :: "-q" :: options) (given ++ entries) :=
    .value (Grammar.names_of_find? (o := ⟨["--rules"], .text⟩) (by decide) rfl) rfl hpath rfl
      (.setting hinput (.value
        (Grammar.names_of_find? (o := ⟨["--max-steps"], .integer⟩) (by decide) rfl) rfl hnumeral
        hsteps (.flag (Grammar.names_of_find? (o := ⟨["-q", "--quiet"], .flag⟩) (by decide) rfl)
          rfl h.reads)))
  have hkeys := h.keys
  have hpreset : ∀ entry ∈ given ++ entries, entry.1 ≠ "--preset" := by
    refine List.forall_mem_append.mpr ⟨by simp [given], fun entry hentry hkey => ?_⟩
    exact absurd (hkey ▸ hkeys entry hentry) (by decide)
  have hfree : machineGrammar.Free (given ++ entries) := by
    intro pair hpair
    obtain rfl : pair = ("--preset", "--rules") := List.mem_singleton.mp hpair
    exact .inl hpreset
  have hlookup : ∀ key : String, key ∉ ["--accept", "--tape-length", "--strict"] →
      (Parsed.mk (given ++ entries) none []).lookup? key =
        (Parsed.mk given none []).lookup? key := by
    intro key hkey
    refine Parsed.lookup?_append (fun entry hentry he => hkey ?_) _ _
    rw [← he]
    exact hkeys entry hentry
  refine ⟨_, readArguments_machine hreads hfree, ?_⟩
  simp only [Parsed.machine, Parsed.source, Parsed.nonempty?, Parsed.text?, Parsed.integer?,
    Parsed.isSet, Parsed.pause, Parsed.seconds?, hlookup "--rules" (by decide),
    hlookup "--input" (by decide), hlookup "--max-steps" (by decide),
    hlookup "--quiet" (by decide), hlookup "--inspect" (by decide), hlookup "--delay" (by decide)]
  have hrules : (Parsed.mk given none []).lookup? "--rules" = some (.text path) := rfl
  refine ⟨by rw [hrules]; simp [hempty], rfl, rfl, rfl, rfl, rfl⟩

/-- A command line for a file of rules, and what it is read as. -/
def sampleArguments : List String :=
  ["machine", "--rules", "f", "--input=ab", "--max-steps", "3", "-q"]

def sampleMachine : MachineArguments :=
  ⟨⟨"duplicate", some "f", [], 100⟩, some "ab", false, some 3, noPause, true, none⟩

theorem readArguments_sample :
    readArguments sampleArguments = .ok (false, some (.machine sampleMachine)) := by
  with_unfolding_all rfl

/-- A machine of one transition halts and reports it. -/
theorem machine_ends_sample :
    readArguments sampleArguments = .ok (false, some (.machine sampleMachine)) ∧
      (Transcript.ofFile "Q0:a/b->R:Q1".toUTF8.toList).store.read "f" =
        .ok "Q0:a/b->R:Q1".toUTF8.toList ∧
      Reports (Transcript.ofFile "Q0:a/b->R:Q1".toUTF8.toList)
        ((script sampleArguments).run (.stored none "")
          (Transcript.ofFile "Q0:a/b->R:Q1".toUTF8.toList)) := by
  refine ⟨readArguments_sample, Transcript.read_ofFile _, ?_⟩
  have hdecode : decodeUtf8 "Q0:a/b->R:Q1".toUTF8.toList = .ok "Q0:a/b->R:Q1" := by
    decide +kernel
  obtain ⟨-, -, hends⟩ := machine_ends (.stored none "") readArguments_sample rfl rfl rfl rfl
    (by decide) rfl _ (Transcript.read_ofFile "Q0:a/b->R:Q1".toUTF8.toList)
  rcases hends _ hdecode (by decide) with
    hreports | ⟨d, hdefinition, ⟨hcount, -⟩ | ⟨-, hcontent, -⟩⟩
  · exact hreports
  · exact absurd hcount (by decide)
  · exfalso
    have hread : Definition.ofText "Q0:a/b->R:Q1" sampleMachine.source.accepting =
        .ok .oneMove := by decide
    obtain rfl := Except.ok.inj (hread.symm.trans hdefinition)
    exact hcontent ⟨by decide, .of_headMark_not_mem (by decide)⟩

/-- An empty file of rules and one that is no text end the command without a message. -/
theorem machine_crashes_without_message :
    readArguments sampleArguments = .ok (false, some (.machine sampleMachine)) ∧
      (script sampleArguments).run (.stored none "") (Transcript.ofFile []) =
        (Transcript.ofFile [], .crash (.own (.definition .noTransition))) ∧
      (script sampleArguments).run (.stored none "") (Transcript.ofFile [0xff]) =
        (Transcript.ofFile [0xff], .crash (.own (.encoding ⟨.startByte, 0, 1, 0xff⟩))) := by
  have hscript : script sampleArguments = machine false sampleMachine := by
    rw [script, readArguments_sample]
  refine ⟨readArguments_sample, ?_, ?_⟩
  · rw [hscript]
    exact (run_readText (.stored none "") _ (Transcript.read_ofFile []) _ _).trans (by rfl)
  · rw [hscript]
    exact (run_readText (.stored none "") _ (Transcript.read_ofFile [0xff]) _ _).trans (by rfl)

end SubstitutionAutomata.Command
