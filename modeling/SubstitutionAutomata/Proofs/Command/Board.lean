import SubstitutionAutomata.Proofs.Command.Life

/-! # How commands on a board end

A command that shows or compares the generations of a board in a file, and saves nothing, ends with
an exit code and says why, unless the bytes of the file are no text or the board is too wide for an
expression. -/

namespace SubstitutionAutomata.Command

open Script Text Regex

/-- A command on the board of a file that writes no file: one that shows a number of generations
without waiting between them, or one that compares them. -/
inductive OnBoard (path text : String) : Invocation → Prop where
  | life (a : LifeArguments) (n : ℤ) (board : a.board = path) (rule : a.rule = text)
      (generations : a.generations = some n) (pause : a.pause.isZero = true)
      (inspect : a.inspect = none) (animation : a.animation = none) : OnBoard path text (.life a)
  | compare (a : CompareArguments) (board : a.board = path) (rule : a.rule = text) :
      OnBoard path text (.compare a)

/-- The file is there, but its bytes are no text. -/
def Undecodable (t : Transcript) (path : String) (fault : Utf8Fault) : Prop :=
  ∃ bytes, t.store.read (Path.normal path) = .ok bytes ∧ decodeUtf8 bytes = .error fault

/-- The file holds the text of a board. -/
def Holds (t : Transcript) (path : String) (b : Board) : Prop :=
  ∃ bytes text, t.store.read (Path.normal path) = .ok bytes ∧ decodeUtf8 bytes = .ok text ∧
    Board.ofText text = .ok b

/-- How such a command ends that reports what happened: normally, or with exit code 1 after one
message on what it cannot use. No file is written. -/
inductive BoardReport {φ : Type} (path text : String) (before : Transcript) :
    Transcript × Ending (Cause φ) → Prop where
  | finished (rule : Rule) (b : Board) (hrule : Rule.parse text = .ok rule)
      (hboard : Holds before path b) (after : Transcript) (store : after.store = before.store) :
      BoardReport path text before (after, .exit 0)
  | malformedRule (e : Rule.Error) (hrule : Rule.parse text = .error e) :
      BoardReport path text before
        ({ before with output := before.output ++ s!"Error parsing rule '{text}': {e.message}\n" },
          .exit 1)
  | refusedBoard (reason : String) (hboard : ∀ b, ¬ Holds before path b) :
      BoardReport path text before
        ({ before with output := before.output ++ s!"Error loading board '{path}': {reason}\n" },
          .exit 1)
  | uncompiled (rule : Rule) (e : Clause.Error) (stride : ℕ) (hrule : Rule.parse text = .ok rule)
      (hclauses : rule.clauses stride = .error e) :
      BoardReport path text before
        ({ before with output := before.output ++ s!"Error compiling rule {rule}: {e.message}\n" },
          .exit 1)

variable {φ : Type} (system : System φ) (t : Transcript)

/-- A script that ends normally without having written a file. -/
def Finishes (s : Script) : Prop :=
  ∀ t : Transcript, (s.run system t).2 = .exit 0 ∧ (s.run system t).1.store = t.store

/-! ## Runs -/

section

variable {system} {a : LifeArguments} {l : Layout}

theorem finishes_saveFrames (hanimation : a.animation = none) (boards : List Board) :
    Finishes system (saveFrames a boards) := by
  intro t
  have hsave : saveFrames a boards = .exit 0 := by simp only [saveFrames, hanimation]
  rw [hsave]
  exact ⟨rfl, rfl⟩

/-- A visit of a buffer of the right length goes on, if nothing is to be waited for. -/
theorem Finishes.visit (hpause : a.pause.isZero = true) {e : Engine}
    (hlength : e.buffer.length = l.bufferLength) {next : Unit → Engine.Course Unit}
    (hnext : ∀ shown, Finishes system (showRun a l (next ()) shown)) (shown : List Board) :
    Finishes system (showRun a l (.visit e next) shown) := by
  obtain ⟨b, hdecode⟩ := l.exists_decode hlength
  have hrest : ∀ interrupted shown, Finishes system
      (pauseIf a.pause interrupted fun _ => showRun a l (next ()) shown) := by
    intro interrupted shown t
    rw [run_pauseIf, if_pos hpause]
    exact hnext shown t
  cases hrenderer : a.renderer with
  | none =>
      simp only [showRun, hdecode, hrenderer]
      exact hrest _ _
  | some renderer =>
      simp only [showRun, hdecode, hrenderer]
      exact fun t => hrest _ _ _

/-- A run shows all its generations if the rule has a pattern for the layout. -/
theorem finishes_showRun (hpause : a.pause.isZero = true) (hanimation : a.animation = none)
    {rule : Rule} (n : ℕ) {e : Engine} (hpattern : rule.pattern l.stride = .ok e.pattern)
    (hlength : e.buffer.length = l.bufferLength) (shown : List Board) :
    Finishes system (showRun a l (e.run false n) shown) := by
  induction n generalizing e shown with
  | zero => exact Finishes.visit hpause hlength (fun _ => finishes_saveFrames hanimation _) shown
  | succ n ih =>
      obtain ⟨out, count, happly, hout⟩ := Rule.exists_apply_of_pattern hpattern e.buffer
      rw [Engine.run_succ_of_step n (Engine.step_eq_of_apply happly)]
      exact Finishes.visit hpause hlength
        (fun shown => ih (e := { e with buffer := out, generation := e.generation + 1 }) hpattern
          (hout.trans hlength) shown) shown

/-- So it does from the board of a file on. -/
theorem finishes_life (hpause : a.pause.isZero = true) (hanimation : a.animation = none)
    (hinspect : a.inspect = none) {b : Board} {rule : Rule} (hheight : 0 < b.height)
    (hwidth : 0 < b.width) {e : LifeEngine}
    (h : LifeEngine.ofCells (.board b) rule a.bordered = .ok e) :
    Finishes system (inspectIf a.inspect e.engine.pattern e.engine.buffer fun _ =>
      showRun a e.layout (e.engine.run false (Engine.generations a.generations)) []) := by
  let l : Layout := ⟨b.width, b.height, a.bordered, hwidth, hheight⟩
  obtain ⟨p, hp, rfl⟩ := LifeEngine.exists_pattern_of_ofCells l rfl rfl h
  let start := Engine.ofBuffer p (String.ofList (l.encodeBoard b))
  have hlength : start.buffer.length = l.bufferLength :=
    String.length_ofList.trans (l.length_encodeBoard_eq b rfl rfl)
  rw [hinspect, inspectIf]
  exact finishes_showRun hpause hanimation (e := start) _ hp hlength []

theorem finishes_compareFrom {b : Board} {rule : Rule} (hheight : 0 < b.height)
    (hwidth : 0 < b.width) (hcells : ∀ y x, b.cell y x ≤ 1) {e : LifeEngine}
    (h : LifeEngine.ofCells (.board b) rule true = .ok e) (a : CompareArguments) :
    Finishes system (compareFrom a a.generations.toNat 1 e (.ofBoard b rule)) := by
  obtain ⟨-, hshows⟩ := Shows.ofCells hheight hwidth hcells h
  have hstart : Shows e.layout (Reference.ofBoard b rule).rule e.engine
      (Reference.ofBoard b rule).board := hshows
  intro t
  rw [hstart.compareFrom a a.generations.toNat 1]
  exact ⟨rfl, rfl⟩

end

/-! ## The board and its engine -/

variable {system t} {path text : String}

theorem Finishes.debug {next : Unit → Script} (h : Finishes system (next ()))
    (verbose : Bool) (source line : String) :
    Finishes system (debug verbose source line next) := by
  intro t
  rw [run_debug, ← t.store_debugged verbose source line]
  exact h _

theorem Finishes.boardReport {s : Script} (h : Finishes system s) {rule : Rule} {b : Board}
    (hrule : Rule.parse text = .ok rule) (hboard : Holds t path b) :
    BoardReport path text t (s.run system t) := by
  obtain ⟨hending, hstore⟩ := h t
  have hr : s.run system t = ((s.run system t).1, .exit 0) :=
    Prod.ext rfl hending
  rw [hr]
  exact .finished rule b hrule hboard _ hstore

theorem Holds.spec {b : Board} (h : Holds t path b) :
    0 < b.height ∧ 0 < b.width ∧ ∀ y x, b.cell y x ≤ 1 := by
  obtain ⟨-, written, -, -, hboard⟩ := h
  exact Board.ofText_spec hboard

theorem Holds.not_undecodable {b : Board} (h : Holds t path b) (fault : Utf8Fault) :
    ¬ Undecodable t path fault := by
  obtain ⟨bytes, written, hread, hdecode, -⟩ := h
  rintro ⟨bytes', hread', hfault⟩
  rw [Except.ok.inj (hread'.symm.trans hread), hdecode] at hfault
  cases hfault

theorem Holds.unique {b b' : Board} (h : Holds t path b) (h' : Holds t path b') : b = b' := by
  obtain ⟨bytes, written, hread, hdecode, hboard⟩ := h
  obtain ⟨bytes', written', hread', hdecode', hboard'⟩ := h'
  obtain rfl := Except.ok.inj (hread.symm.trans hread')
  obtain rfl := Except.ok.inj (hdecode.symm.trans hdecode')
  exact Except.ok.inj (hboard.symm.trans hboard')

/-- The engine of a board runs, or the rule has no clauses, or the board is too wide. -/
theorem withLifeEngine_ends {b : Board} {rule : Rule} {bordered : Bool}
    (hrule : Rule.parse text = .ok rule) (hboard : Holds t path b) (verbose : Bool)
    {next : LifeEngine → Script}
    (hnext : ∀ e, LifeEngine.ofCells (.board b) rule bordered = .ok e →
      Finishes system (next e)) :
    let r := (withLifeEngine verbose b rule bordered next).run system t
    BoardReport path text t r ∨ repeatLimit ≤ b.width + 3 ∧
      ∃ e, r.2 = .crash (.own (.life (.pattern (.expression e)))) := by
  obtain ⟨hheight, hwidth, -⟩ := hboard.spec
  let l : Layout := ⟨b.width, b.height, bordered, hwidth, hheight⟩
  have hengine : LifeEngine.ofCells (.board b) rule bordered = _ :=
    LifeEngine.ofCells_board l rule rfl rfl
  have hstride : l.stride ≤ b.width + 3 := by
    cases bordered with
    | true => exact Nat.le_refl _
    | false => exact Nat.le_add_right b.width 3
  cases hpattern : rule.pattern l.stride with
  | error e =>
      rw [hpattern] at hengine
      cases e with
      | clause e =>
          left
          simp only [withLifeEngine, hengine, run_fail]
          exact .uncompiled rule e l.stride hrule (Rule.clauses_of_pattern_eq_clause hpattern)
      | expression e =>
          right
          simp only [withLifeEngine, hengine]
          have hlimit := Rule.limit_le_of_pattern_eq_expression hpattern
          exact ⟨by omega, e, rfl⟩
  | ok p =>
      left
      rw [hpattern] at hengine
      simp only [withLifeEngine, hengine]
      exact ((hnext _ hengine).debug _ _ _).boardReport hrule hboard

theorem run_withBoard_of_undecodable {fault : Utf8Fault} (h : Undecodable t path fault)
    (next : Board → Script) :
    (withBoard path next).run system t = (t, .crash (.own (.encoding fault))) := by
  obtain ⟨bytes, hread, hdecode⟩ := h
  rw [withBoard, run_readText system t hread, hdecode]

theorem run_withBoard_of_holds {b : Board} (h : Holds t path b) (next : Board → Script) :
    (withBoard path next).run system t = (next b).run system t := by
  obtain ⟨bytes, written, hread, hdecode, hboard⟩ := h
  rw [withBoard, run_readText system t hread, hdecode]
  simp only [hboard]

/-- A file that cannot be opened and a text that is no board are refused. -/
theorem boardReport_of_not_holds (hdecodable : ∀ fault, ¬ Undecodable t path fault)
    (hboard : ∀ b, ¬ Holds t path b) (next : Board → Script) :
    BoardReport path text t ((withBoard path next).run system t) := by
  rw [withBoard]
  cases hread : t.store.read (Path.normal path) with
  | error e =>
      rw [run_readText_of_error system t hread, run_fail]
      exact .refusedBoard e.message hboard
  | ok bytes =>
      rw [run_readText system t hread]
      cases hdecode : decodeUtf8 bytes with
      | error fault => exact absurd ⟨bytes, hread, hdecode⟩ (hdecodable fault)
      | ok written =>
          cases hwritten : Board.ofText written with
          | ok b => exact absurd ⟨bytes, written, hread, hdecode, hwritten⟩ (hboard b)
          | error e =>
              simp only [hwritten, run_fail]
              exact .refusedBoard e.message hboard

/-- A board is read and its engine runs, or the file is no text, or the board is too wide. -/
theorem withBoardEngine_ends {bordered : Bool} (verbose : Bool)
    {next : Rule → Board → LifeEngine → Script}
    (hnext : ∀ rule b e, Holds t path b → LifeEngine.ofCells (.board b) rule bordered = .ok e →
      Finishes system (next rule b e)) :
    let r := (withRule text fun rule => withBoard path fun b =>
      withLifeEngine verbose b rule bordered (next rule b)).run system t
    BoardReport path text t r ∨
      (∃ rule fault, Rule.parse text = .ok rule ∧ Undecodable t path fault) ∨
      ∃ b e, Holds t path b ∧ repeatLimit ≤ b.width + 3 ∧
        r.2 = .crash (.own (.life (.pattern (.expression e)))) := by
  cases hrule : Rule.parse text with
  | error e =>
      simp only [withRule, hrule, run_fail]
      exact .inl (.malformedRule e hrule)
  | ok rule =>
      simp only [withRule, hrule]
      by_cases hfault : ∃ fault, Undecodable t path fault
      · obtain ⟨fault, hfault⟩ := hfault
        exact .inr (.inl ⟨rule, fault, rfl, hfault⟩)
      · by_cases hholds : ∃ b, Holds t path b
        · obtain ⟨b, hb⟩ := hholds
          rw [run_withBoard_of_holds hb]
          rcases withLifeEngine_ends hrule hb verbose (hnext rule b · hb) with
            hreport | ⟨hlimit, e, hcrash⟩
          · exact .inl hreport
          · exact .inr (.inr ⟨b, e, hb, hlimit, hcrash⟩)
        · left
          apply boardReport_of_not_holds
          · exact not_exists.mp hfault
          · exact not_exists.mp hholds

/-! ## Command lines -/

/-- The command lines that show the generations of a board, inside a border or not, or compare them.
-/
inductive BoardLine (path text numeral : String) : List String → Prop where
  | bordered : BoardLine path text numeral
      ["life", path, Setting.text ⟨"--rule", text⟩, "-g", numeral]
  | unbordered : BoardLine path text numeral
      ["life", path, Setting.text ⟨"--rule", text⟩, "-g", numeral, "--unbordered"]
  | compare : BoardLine path text numeral
      ["compare", path, Setting.text ⟨"--rule", text⟩, "-g", numeral]

theorem BoardLine.exists_onBoard {numeral : String} {arguments : List String}
    (h : BoardLine path text numeral arguments) (hpath : path.startsWith "-" = false)
    (hnumeral : numeral.startsWith "-" = false) {n : ℤ} (hn : int? numeral = some n) :
    ∃ command, readArguments arguments = .ok (false, some command) ∧
      OnBoard path text command := by
  have hlife := Grammar.accepts_rule (g := lifeGrammar) rfl text
  have hcompare := Grammar.accepts_rule (g := compareGrammar) rfl text
  cases h with
  | bordered =>
      have hread := readArguments_life hpath
        (.setting hlife (.generations Grammar.names_generations_life hnumeral hn .nil))
      exact ⟨_, hread, .life _ n rfl rfl rfl rfl rfl rfl⟩
  | unbordered =>
      have hread := readArguments_life hpath (.setting hlife
        (.generations Grammar.names_generations_life hnumeral hn
          (.flag Grammar.names_unbordered rfl .nil)))
      exact ⟨_, hread, .life _ n rfl rfl rfl rfl rfl rfl⟩
  | compare =>
      have hread := readArguments_compare hpath
        (.setting hcompare (.generations Grammar.names_generations_compare hnumeral hn .nil))
      exact ⟨_, hread, .compare _ rfl rfl⟩

variable (system t) in
/-- What these commands do: they read the rule and the board, and run the engine of both. -/
theorem exists_script_of_onBoard {command : Invocation} (h : OnBoard path text command)
    {arguments : List String} {verbose : Bool}
    (hread : readArguments arguments = .ok (verbose, some command)) :
    ∃ (bordered : Bool) (next : Rule → Board → LifeEngine → Script),
      script arguments = (withRule text fun rule => withBoard path fun b =>
        withLifeEngine verbose b rule bordered (next rule b)) ∧
      ∀ rule b e, Holds t path b → LifeEngine.ofCells (.board b) rule bordered = .ok e →
        Finishes system (next rule b e) := by
  cases h with
  | life a n board rule generations pause inspect animation =>
      have hscript : script arguments = life verbose a := by rw [script, hread]
      subst board rule
      refine ⟨a.bordered, _, hscript, fun rule b e hb he => ?_⟩
      obtain ⟨hheight, hwidth, -⟩ := hb.spec
      exact finishes_life pause animation inspect hheight hwidth he
  | compare a board rule =>
      have hscript : script arguments = compare verbose a := by rw [script, hread]
      subst board rule
      refine ⟨true, _, hscript, fun rule b e hb he => ?_⟩
      obtain ⟨hheight, hwidth, hcells⟩ := hb.spec
      exact finishes_compareFrom hheight hwidth hcells he a

theorem run_of_undecodable {command : Invocation} (h : OnBoard path text command)
    {arguments : List String} {verbose : Bool}
    (hread : readArguments arguments = .ok (verbose, some command)) {rule : Rule}
    (hrule : Rule.parse text = .ok rule) {fault : Utf8Fault} (hfault : Undecodable t path fault) :
    (script arguments).run system t = (t, .crash (.own (.encoding fault))) := by
  obtain ⟨bordered, next, hscript, -⟩ := exists_script_of_onBoard system t h hread
  rw [hscript, withRule, hrule]
  exact run_withBoard_of_undecodable hfault _

/-- A command on the board of a file ends with an exit code and says why, and then it has written no
file. It ends without a report only if the rule is read and the bytes of the file are no text, or if
the board is too wide for the expression of the rule. -/
theorem board_commands_end {φ : Type} (system : System φ) {arguments : List String}
    {verbose : Bool} {command : Invocation}
    (hread : readArguments arguments = .ok (verbose, some command)) {path text : String}
    (hcommand : OnBoard path text command) (t : Transcript) :
    let r := (script arguments).run system t
    (∀ rule fault, Rule.parse text = .ok rule → Undecodable t path fault →
        r = (t, .crash (.own (.encoding fault)))) ∧
      (BoardReport path text t r ∨
        (∃ rule fault, Rule.parse text = .ok rule ∧ Undecodable t path fault) ∨
        ∃ b e, Holds t path b ∧ repeatLimit ≤ b.width + 3 ∧
          r.2 = .crash (.own (.life (.pattern (.expression e))))) := by
  obtain ⟨bordered, next, hscript, hnext⟩ := exists_script_of_onBoard system t hcommand hread
  constructor
  · intro rule fault hrule hfault
    exact run_of_undecodable hcommand hread hrule hfault
  · rw [hscript]
    exact withBoardEngine_ends verbose hnext

theorem holds_blinker : Holds (.ofFile blinkerText.toUTF8.toList) "f" blinker := by
  refine ⟨blinkerText.toUTF8.toList, blinkerText, ?_, by decide +kernel, ofText_blinkerText⟩
  rw [Path.normal_f]
  exact Transcript.read_ofFile _

theorem undecodable_byte : Undecodable (.ofFile [0xff]) "f" ⟨.startByte, 0, 1, 0xff⟩ := by
  refine ⟨[0xff], ?_, by rfl⟩
  rw [Path.normal_f]
  exact Transcript.read_ofFile _

/-- A blinker that is compared for two generations. -/
theorem board_commands_end_blinker :
    ∃ command, readArguments ["compare", "f", "--rule=B3/S23", "-g", "2"] =
        .ok (false, some command) ∧
      OnBoard "f" "B3/S23" command ∧
      BoardReport "f" "B3/S23" (.ofFile blinkerText.toUTF8.toList)
        ((script ["compare", "f", "--rule=B3/S23", "-g", "2"]).run (.stored none "")
          (.ofFile blinkerText.toUTF8.toList)) := by
  have hline : BoardLine "f" "B3/S23" "2" ["compare", "f", "--rule=B3/S23", "-g", "2"] := .compare
  obtain ⟨command, hread, hcommand⟩ := hline.exists_onBoard (by decide +kernel)
    (by decide +kernel) (n := 2) (by with_unfolding_all rfl)
  refine ⟨command, hread, hcommand, ?_⟩
  obtain ⟨-, hreport | ⟨rule, fault, -, hfault⟩ | ⟨b, e, hb, hlimit, -⟩⟩ :=
    board_commands_end (.stored none "") hread hcommand (.ofFile blinkerText.toUTF8.toList)
  · exact hreport
  · exact absurd hfault (holds_blinker.not_undecodable fault)
  · obtain rfl := holds_blinker.unique hb
    exact absurd hlimit (by decide)

/-- A file that is no text ends these commands without a message. -/
theorem board_commands_crash_without_message :
    (∃ command, readArguments ["life", "f", "--rule=B3/S23", "-g", "1"] =
        .ok (false, some command) ∧ OnBoard "f" "B3/S23" command) ∧
      (script ["life", "f", "--rule=B3/S23", "-g", "1"]).run (.stored none "") (.ofFile [0xff]) =
        (.ofFile [0xff], .crash (.own (.encoding ⟨.startByte, 0, 1, 0xff⟩))) ∧
      (script ["compare", "f", "--rule=B3/S23", "-g", "1"]).run (.stored none "") (.ofFile [0xff]) =
        (.ofFile [0xff], .crash (.own (.encoding ⟨.startByte, 0, 1, 0xff⟩))) := by
  have hrule : Rule.parse "B3/S23" = .ok .gameOfLife := by rfl
  have hends : ∀ arguments, BoardLine "f" "B3/S23" "1" arguments →
      (∃ command, readArguments arguments = .ok (false, some command) ∧
        OnBoard "f" "B3/S23" command) ∧
      (script arguments).run (.stored none "") (.ofFile [0xff]) =
        (.ofFile [0xff], .crash (.own (.encoding ⟨.startByte, 0, 1, 0xff⟩))) := by
    intro arguments hline
    obtain ⟨command, hread, hcommand⟩ := hline.exists_onBoard (by decide +kernel)
      (by decide +kernel) (n := 1) (by with_unfolding_all rfl)
    exact ⟨⟨command, hread, hcommand⟩,
      run_of_undecodable hcommand hread hrule undecodable_byte⟩
  have hlife := hends ["life", "f", "--rule=B3/S23", "-g", "1"] .bordered
  have hcompare := hends ["compare", "f", "--rule=B3/S23", "-g", "1"] .compare
  exact ⟨hlife.1, hlife.2, hcompare.2⟩

end SubstitutionAutomata.Command
