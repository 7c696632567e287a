import SubstitutionAutomata.Proofs.Board.File
import SubstitutionAutomata.Proofs.Command.Arguments
import SubstitutionAutomata.Proofs.Command.Outcome
import SubstitutionAutomata.Proofs.Life.CellByCell
import SubstitutionAutomata.Proofs.Life.Equivalence

/-! # What a life command shows

A life command writes one frame for each generation of the board, computed cell by cell, up to the
last generation or to the first wait that is not over. It saves the boards that it has shown, unless
it ends at a wait that is refused. -/

namespace SubstitutionAutomata

theorem LifeEngine.generation_of_ofCells {cells : CellArray} {rule : Rule} {bordered : Bool}
    {e : LifeEngine} (h : ofCells cells rule bordered = .ok e) : e.engine.generation = 0 := by
  unfold ofCells at h
  split at h
  · cases h
  · split at h
    · cases h
    · split at h
      · cases h
      · obtain rfl := Except.ok.inj h
        rfl

/-- Boards with cells have frames of every size but a negative one. -/
theorem Image.ofBoards_eq_ok {boards : List Board} {size : ℤ} (hsize : 0 ≤ size) :
    ofBoards boards size = .ok (boards.map fun b => ofBoard b size.toNat) := by
  have hboard : ∀ b, ofBoard? b size = pure (ofBoard b size.toNat) := by
    intro b
    have hheight : 0 ≤ b.height * size := Int.mul_nonneg (Int.natCast_nonneg _) hsize
    have hwidth : 0 ≤ b.width * size := Int.mul_nonneg (Int.natCast_nonneg _) hsize
    exact if_neg (by omega)
  simp only [ofBoards, hboard, List.mapM_pure]
  rfl

theorem Image.ofBoards_eq_error {b : Board} (hheight : 0 < b.height) (boards : List Board)
    {size : ℤ} (hsize : size < 0) : ofBoards (b :: boards) size = .error {} := by
  have hnegative : b.height * size < 0 := Int.mul_neg_of_pos_of_neg (by omega) hsize
  have hboard : ofBoard? b size = .error {} := if_pos (.inl hnegative)
  rw [ofBoards, List.mapM_cons, hboard]
  rfl

namespace Command

open Script Text Regex

/-! ## Frames -/

/-- The frame of a generation: the board in blocks on a cleared screen, and its live cells. -/
def generationText (b : Board) (rule : Rule) (k : ℕ) : String :=
  Board.frame (b.generation rule k).blockLines true ++
    s!"Generation {k}  Population {(b.generation rule k).population}\n"

theorem frameText_generation {b : Board} {rule : Rule} {k : ℕ}
    (hcells : ∀ y x, (b.generation rule k).cell y x ≤ 1) :
    frameText .block k (b.generation rule k) = generationText b rule k := by
  rw [frameText, Board.total_eq_population hcells]
  rfl

/-- The frames of the first generations. -/
def generationsText (b : Board) (rule : Rule) (n : ℕ) : String :=
  String.join ((List.range n).map (generationText b rule))

theorem generationsText_succ (b : Board) (rule : Rule) (n : ℕ) :
    generationsText b rule (n + 1) = generationsText b rule n ++ generationText b rule n := by
  rw [generationsText, List.range_succ, List.map_append, String.join, List.foldl_append]
  rfl

/-- The boards of the first generations. -/
def firstGenerations (b : Board) (rule : Rule) (n : ℕ) : List Board :=
  (List.range n).map (b.generation rule)

theorem firstGenerations_succ (b : Board) (rule : Rule) (n : ℕ) :
    firstGenerations b rule (n + 1) = firstGenerations b rule n ++ [b.generation rule n] := by
  rw [firstGenerations, List.range_succ, List.map_append]
  rfl

/-! ## Ends -/

section

variable {φ : Type} (system : System φ) (a : LifeArguments)

/-- What becomes of the boards shown: nothing, or frames that the system saves, if an animation is
asked for. -/
inductive Saves (boards : List Board) (t : Transcript) : Transcript × Ending (Cause φ) → Prop where
  | plain (hanimation : a.animation = none) : Saves boards t (t, .exit 0)
  | negativeSize (path : String) (hanimation : a.animation = some path) (hsize : a.cellSize < 0) :
      Saves boards t (t, .crash (.own (.size (.negative {}))))
  | refused (path : String) (store : Store) (reason : φ) (hanimation : a.animation = some path)
      (hsize : 0 ≤ a.cellSize)
      (hsave : system.save t.store path (boards.map fun b => Image.ofBoard b a.cellSize.toNat) =
        (store, some reason)) :
      Saves boards t ({ t with store := store }, .crash (.system reason))
  | saved (path : String) (store : Store) (hanimation : a.animation = some path)
      (hsize : 0 ≤ a.cellSize)
      (hsave : system.save t.store path (boards.map fun b => Image.ofBoard b a.cellSize.toNat) =
        (store, none)) :
      Saves boards t
        ({ t with
            output := t.output ++ s!"Saved animation to: {path}\n"
            store := store }, .exit 0)

/-- Without an animation a command ends normally. -/
theorem Saves.eq_of_plain {system : System φ} {a : LifeArguments} {boards : List Board}
    {t : Transcript} {r : Transcript × Ending (Cause φ)} (h : Saves system a boards t r)
    (hanimation : a.animation = none) : r = (t, .exit 0) := by
  cases h <;> simp_all

/-- A command has written a text and ends by saving some boards, if it is asked to. -/
def EndsAfter (before : Transcript) (text : String) (boards : List Board)
    (r : Transcript × Ending (Cause φ)) : Prop :=
  ∃ after : Transcript, after.output = before.output ++ text ∧ after.store = before.store ∧
    Saves system a boards after r

theorem saves_saveFrames {b : Board} (hheight : 0 < b.height) (boards : List Board)
    (t : Transcript) :
    Saves system a (b :: boards) t ((saveFrames a (b :: boards)).run system t) := by
  cases hanimation : a.animation with
  | none =>
      simp only [saveFrames, hanimation]
      exact .plain hanimation
  | some path =>
      simp only [saveFrames, hanimation]
      by_cases hsize : a.cellSize < 0
      · rw [Image.ofBoards_eq_error hheight boards hsize]
        exact .negativeSize path hanimation hsize
      · have hsize := Int.not_lt.mp hsize
        rw [Image.ofBoards_eq_ok hsize]
        simp only [Script.run]
        cases hsave : system.save t.store path
            ((b :: boards).map fun b => Image.ofBoard b a.cellSize.toNat) with
        | mk store reason? =>
            cases reason? with
            | none => exact .saved path store hanimation hsize hsave
            | some reason => exact .refused path store reason hanimation hsize hsave

/-- Boards are kept only for an animation. -/
theorem saveFrames_congr {boards boards' : List Board}
    (h : a.animation.isSome = true → boards = boards') :
    saveFrames a boards = saveFrames a boards' := by
  cases hanimation : a.animation with
  | none => simp only [saveFrames, hanimation]
  | some path => rw [h (by rw [hanimation]; rfl)]

end

/-! ## Runs -/

section

variable {φ : Type} (system : System φ) (a : LifeArguments) (before : Transcript) (b : Board)
  (rule : Rule)

/-- How the wait after so many frames ends. A wait for no time is over at once. -/
def waitAfter (n : ℕ) : Pause φ :=
  if a.pause.isZero then .elapsed else system.pause (before.pauses + n) a.pause

/-- How a command ends that has shown `k` frames and is to show `last`: after all of them if every
wait is over, with an empty line after the first wait that is interrupted, or without a word at the
first that is refused. -/
structure ShowsGenerations (k last : ℕ) (r : Transcript × Ending (Cause φ)) : Prop where
  finished : (∀ m, k < m → m ≤ last → waitAfter system a before m = .elapsed) →
    EndsAfter system a before (generationsText b rule last) (firstGenerations b rule last) r
  interrupted : ∀ m, k < m → m ≤ last →
    (∀ i, k < i → i < m → waitAfter system a before i = .elapsed) →
    waitAfter system a before m = .interrupted →
    EndsAfter system a before (generationsText b rule m ++ "\n") (firstGenerations b rule m) r
  refused : ∀ m reason, k < m → m ≤ last →
    (∀ i, k < i → i < m → waitAfter system a before i = .elapsed) →
    waitAfter system a before m = .refused reason →
    r.1.output = before.output ++ generationsText b rule m ∧ r.1.store = before.store ∧
      r.2 = .crash (.system reason)

/-- So many frames are written and waited after, and their boards are kept if they are to be
saved. -/
structure Showing (k : ℕ) (t : Transcript) (shown : List Board) : Prop where
  output : t.output = before.output ++ generationsText b rule k
  store : t.store = before.store
  pauses : t.pauses = before.pauses + if a.pause.isZero then 0 else k
  shown : a.animation.isSome = true → shown.reverse = firstGenerations b rule k

variable {system a before b rule} {l : Layout} {e : Engine} {k last : ℕ} {t : Transcript}
  {shown : List Board} {r : Transcript × Ending (Cause φ)}

theorem lt_of_waitAfter_ne (hwait : waitAfter system a before (k + 1) = .elapsed) {m : ℕ}
    (hm : k < m) (hstop : waitAfter system a before m ≠ .elapsed) : k + 1 < m := by
  have hne : k + 1 ≠ m := by
    intro he
    rw [he] at hwait
    exact hstop hwait
  omega

/-- A wait that is over leaves what comes after it. -/
theorem ShowsGenerations.of_elapsed (hwait : waitAfter system a before (k + 1) = .elapsed)
    (h : ShowsGenerations system a before b rule (k + 1) last r) :
    ShowsGenerations system a before b rule k last r where
  finished helapsed := h.finished fun m hm => helapsed m (Nat.lt_of_succ_lt hm)
  interrupted m hm hle helapsed hstop :=
    h.interrupted m (lt_of_waitAfter_ne hwait hm (by simp [hstop])) hle
      (fun i hi => helapsed i (Nat.lt_of_succ_lt hi)) hstop
  refused m reason hm hle helapsed hstop :=
    h.refused m reason (lt_of_waitAfter_ne hwait hm (by simp [hstop])) hle
      (fun i hi => helapsed i (Nat.lt_of_succ_lt hi)) hstop

/-- With the last wait over, all is shown. -/
theorem ShowsGenerations.of_finished (hwait : waitAfter system a before (k + 1) = .elapsed)
    (h : EndsAfter system a before (generationsText b rule (k + 1))
      (firstGenerations b rule (k + 1)) r) :
    ShowsGenerations system a before b rule k (k + 1) r where
  finished _ := h
  interrupted m hm hle _ hstop :=
    absurd (lt_of_waitAfter_ne hwait hm (by simp [hstop])) (Nat.not_lt_of_le hle)
  refused m reason hm hle _ hstop :=
    absurd (lt_of_waitAfter_ne hwait hm (by simp [hstop])) (Nat.not_lt_of_le hle)

/-- A first wait that is not over is the one that ends the command. -/
theorem ShowsGenerations.of_stop (hwait : waitAfter system a before (k + 1) ≠ .elapsed)
    (hlast : k + 1 ≤ last)
    (hinterrupted : waitAfter system a before (k + 1) = .interrupted →
      EndsAfter system a before (generationsText b rule (k + 1) ++ "\n")
        (firstGenerations b rule (k + 1)) r)
    (hrefused : ∀ reason, waitAfter system a before (k + 1) = .refused reason →
      r.1.output = before.output ++ generationsText b rule (k + 1) ∧ r.1.store = before.store ∧
        r.2 = .crash (.system reason)) :
    ShowsGenerations system a before b rule k last r := by
  have hfirst : ∀ m, k < m → (∀ i, k < i → i < m → waitAfter system a before i = .elapsed) →
      m = k + 1 := by
    intro m hm helapsed
    by_contra hne
    exact hwait (helapsed (k + 1) (Nat.lt_succ_self k) (by omega))
  constructor
  · intro helapsed
    exact absurd (helapsed (k + 1) (Nat.lt_succ_self k) hlast) hwait
  · intro m hm _ helapsed hstop
    obtain rfl := hfirst m hm helapsed
    exact hinterrupted hstop
  · intro m reason hm _ helapsed hstop
    obtain rfl := hfirst m hm helapsed
    exact hrefused reason hstop

theorem ShowsGenerations.of_interrupted
    (hwait : waitAfter system a before (k + 1) = .interrupted) (hlast : k + 1 ≤ last)
    (h : EndsAfter system a before (generationsText b rule (k + 1) ++ "\n")
      (firstGenerations b rule (k + 1)) r) :
    ShowsGenerations system a before b rule k last r :=
  .of_stop (by simp [hwait]) hlast (fun _ => h) (by simp [hwait])

theorem ShowsGenerations.of_refused {reason : φ}
    (hwait : waitAfter system a before (k + 1) = .refused reason) (hlast : k + 1 ≤ last)
    (h : Showing a before b rule (k + 1) t shown) :
    ShowsGenerations system a before b rule k last (t, .crash (.system reason)) := by
  refine .of_stop (by simp [hwait]) hlast (by simp [hwait]) fun reason' hreason => ?_
  obtain rfl := Pause.refused.inj (hwait.symm.trans hreason)
  exact ⟨h.output, h.store, rfl⟩

theorem showRun_visit {board : Board} (hdecode : l.decode e.buffer = .ok board)
    {renderer : Board.Renderer} (hrenderer : a.renderer = some renderer)
    (next : Unit → Engine.Course Unit) (shown : List Board) :
    let shown' := if a.animation.isSome then board :: shown else []
    showRun a l (.visit e next) shown =
      .print (frameText renderer e.generation board) fun _ => pauseIf a.pause
        (fun _ => saveFrames a shown'.reverse) fun _ => showRun a l (next ()) shown' := by
  simp only [showRun, hdecode, hrenderer]

/-- A visit writes the next frame and waits. -/
theorem Showing.visit (h : Showing a before b rule k t shown)
    (hrenderer : a.renderer = some .block) (he : Shows l rule e (b.generation rule k))
    (hgeneration : e.generation = k) (next : Unit → Engine.Course Unit) :
    ∃ t' shown', Showing a before b rule (k + 1) t' shown' ∧
      (showRun a l (.visit e next) shown).run system t =
        match waitAfter system a before (k + 1) with
        | .elapsed => (showRun a l (next ()) shown').run system t'
        | .interrupted =>
          (saveFrames a shown'.reverse).run system { t' with output := t'.output ++ "\n" }
        | .refused reason => (t', .crash (.system reason)) := by
  let t' : Transcript := { t with
    output := t.output ++ generationText b rule k
    pauses := t.pauses + if a.pause.isZero then 0 else 1 }
  let shown' := if a.animation.isSome then b.generation rule k :: shown else []
  have hnext : Showing a before b rule (k + 1) t' shown' := by
    refine ⟨?_, h.store, ?_, ?_⟩
    · rw [generationsText_succ, ← String.append_assoc, ← h.output]
    · simp only [t', h.pauses]
      split <;> omega
    · intro hanimation
      simp only [shown', hanimation, if_true, List.reverse_cons, h.shown hanimation,
        firstGenerations_succ]
  refine ⟨t', shown', hnext, ?_⟩
  rw [showRun_visit he.decode hrenderer next shown, hgeneration, frameText_generation he.cells,
    Script.run, run_pauseIf]
  by_cases hpause : a.pause.isZero = true
  · simp only [waitAfter, t', shown', hpause, if_true, Nat.add_zero]
  · have hnumber : before.pauses + (k + 1) = t.pauses + 1 := by
      rw [h.pauses, if_neg hpause, Nat.add_assoc]
    have hwait : waitAfter system a before (k + 1) = system.pause (t.pauses + 1) a.pause := by
      rw [waitAfter, if_neg hpause, hnumber]
    rw [hwait, if_neg hpause]
    cases system.pause (t.pauses + 1) a.pause <;> simp only [t', shown', if_neg hpause]

/-- After its frames, and perhaps an empty line, a command saves the boards of these frames. -/
theorem Showing.ends (system : System φ) (h : Showing a before b rule (k + 1) t shown)
    (hheight : 0 < b.height) {after : Transcript} {line : String}
    (houtput : after.output = t.output ++ line) (hstore : after.store = t.store) :
    EndsAfter system a before (generationsText b rule (k + 1) ++ line)
      (firstGenerations b rule (k + 1)) ((saveFrames a shown.reverse).run system after) := by
  have hboards : firstGenerations b rule (k + 1) =
      b :: (List.range k).map fun i => b.generation rule (i + 1) := by
    rw [firstGenerations, List.range_succ_eq_map, List.map_cons, List.map_map]
    rfl
  refine ⟨after, ?_, hstore.trans h.store, ?_⟩
  · rw [houtput, h.output, String.append_assoc]
  · rw [saveFrames_congr a h.shown, hboards]
    exact saves_saveFrames system a hheight _ after

/-- A run shows its generations one after the other, as long as the waits after them are over. -/
theorem Showing.run (system : System φ) (hheight : 0 < b.height)
    (hrenderer : a.renderer = some .block) (n : ℕ) (h : Showing a before b rule k t shown)
    (he : Shows l rule e (b.generation rule k)) (hgeneration : e.generation = k) :
    ShowsGenerations system a before b rule k (k + n + 1)
      ((showRun a l (e.run false n) shown).run system t) := by
  -- The induction is on the generations left: one visit takes k frames to k + 1.
  induction n generalizing e k t shown with
  | zero =>
      obtain ⟨t', shown', hnext, hrun⟩ :=
        h.visit hrenderer he hgeneration fun _ => .done e ()
      rw [Engine.run, hrun]
      cases hwait : waitAfter system a before (k + 1) with
      | elapsed =>
          have hends := hnext.ends system hheight String.append_empty.symm (Eq.refl t'.store)
          rw [String.append_empty] at hends
          exact .of_finished hwait hends
      | interrupted =>
          exact .of_interrupted hwait (Nat.le_refl _) (hnext.ends system hheight rfl rfl)
      | refused reason => exact .of_refused hwait (Nat.le_refl _) hnext
  | succ n ih =>
      obtain ⟨e', hstep, he'⟩ := he.step
      rw [← Board.next_eq_convolved rule he.cells, ← Board.generation_succ] at he'
      obtain ⟨t', shown', hnext, hrun⟩ :=
        h.visit hrenderer he hgeneration fun _ => e'.run false n
      have hlater := ih hnext he' (by rw [Engine.generation_of_step hstep, hgeneration])
      have hlast : k + 1 + n + 1 = k + (n + 1) + 1 := by omega
      rw [hlast] at hlater
      rw [Engine.run_succ_of_step n hstep, hrun]
      cases hwait : waitAfter system a before (k + 1) with
      | elapsed => exact .of_elapsed hwait hlater
      | interrupted => exact .of_interrupted hwait (by omega) (hnext.ends system hheight rfl rfl)
      | refused reason => exact .of_refused hwait (by omega) hnext

end

/-! ## The command -/

/-- A bordered life command with blocks writes the frames of all generations that it is asked for,
from the board of its file on, as long as the waits between them are over. A wait that is
interrupted leaves the frames up to it and an empty line, and one that is refused ends the command.
If it is asked for an animation, it saves the boards of the frames that it has written. -/
theorem life_shows_generations {φ : Type} (system : System φ) {arguments : List String}
    {verbose : Bool} {a : LifeArguments}
    (hread : readArguments arguments = .ok (verbose, some (.life a))) {n : ℕ}
    (hgenerations : a.generations = some (n : ℤ)) (hrenderer : a.renderer = some .block)
    (hbordered : a.bordered = true) (hinspect : a.inspect = none) {rule : Rule}
    (hrule : Rule.parse a.rule = .ok rule) (hbirth : 0 ∉ rule.birth) (t : Transcript)
    {bytes : List UInt8} {text : String} {b : Board}
    (hbytes : t.store.read (Path.normal a.board) = .ok bytes)
    (hdecode : decodeUtf8 bytes = .ok text) (hboard : Board.ofText text = .ok b)
    (hlimit : b.width + 3 < repeatLimit) :
    ShowsGenerations system a t b rule 0 (n + 1) ((script arguments).run system t) := by
  have hscript : script arguments = life verbose a := by rw [script, hread]
  obtain ⟨hheight, hwidth, hcells⟩ := Board.ofText_spec hboard
  obtain ⟨e, he⟩ := LifeEngine.exists_ofCells b rule hheight hwidth hbirth hlimit
  obtain ⟨-, hshows⟩ := Shows.ofCells hheight hwidth hcells he
  have hpattern : LifeEngine.ofCells (.board b) rule a.bordered = .ok e := by rw [hbordered, he]
  have hcount : Engine.generations (some (n : ℤ)) = n := by simp [Engine.generations]
  simp only [hscript, life, withRule, hrule, withBoard, run_readText system t hbytes, hdecode,
    hboard, withLifeEngine, hpattern, run_debug, hinspect, inspectIf, hgenerations, hcount]
  have hstart : ∀ source line, Showing a t b rule 0 (t.debugged verbose source line) [] := by
    intro source line
    exact ⟨by simp [generationsText, String.join], by simp, by simp, fun _ => rfl⟩
  have hrun := fun source line => (hstart source line).run system hheight hrenderer n hshows
    (LifeEngine.generation_of_ofCells he)
  rw [Nat.zero_add] at hrun
  exact hrun _ _

theorem Path.normal_f : Path.normal "f" = "f" := by
  rw [Path.normal, Path.parts_f]
  decide

/-- A blinker, and a command line for a file that holds it. -/
def blinker : Board := .ofRows 3 [[0, 1, 0], [0, 1, 0], [0, 1, 0]]

def blinkerText : String := "010\n010\n010\n"

theorem ofText_blinkerText : Board.ofText blinkerText = .ok blinker := by
  have hlines : Board.linesOfText blinkerText = ["010", "010", "010"] := by decide
  have hcheck : Board.checkRows "010".toList.length 0 ["010".toList, "010".toList, "010".toList] =
      .ok () := by decide +kernel
  simp only [Board.ofText, hlines, Board.ofLines, List.map_cons, List.map_nil, hcheck]
  rfl

def blinkerArguments : List String := ["life", "f", "--rule=B3/S23", "--delay=1", "-g", "3"]

def blinkerCommand : LifeArguments :=
  ⟨"f", "B3/S23", some 3, some .block, .decimal false 1 0, true, none, none, 4⟩

theorem readArguments_blinker :
    readArguments blinkerArguments = .ok (false, some (.life blinkerCommand)) := by
  have hgenerations : lifeGrammar.Reads ["-g", "3"] [("--generations", .integer 3)] :=
    .generations Grammar.names_generations_life (by decide +kernel) (by with_unfolding_all rfl)
      .nil
  have hdelay : lifeGrammar.Accepts ⟨"--delay", "1"⟩ ("--delay", .seconds (.decimal false 1 0)) :=
    Grammar.accepts_of_find? (o := ⟨["--delay"], .seconds⟩) (by decide) rfl rfl
      (by with_unfolding_all rfl)
  exact readArguments_life (by decide +kernel)
    (.setting (Grammar.accepts_rule rfl "B3/S23") (.setting hdelay hgenerations))

/-- A blinker that is interrupted after two of four frames. -/
theorem life_shows_generations_blinker :
    readArguments blinkerArguments = .ok (false, some (.life blinkerCommand)) ∧
      (Transcript.ofFile blinkerText.toUTF8.toList).store.read (Path.normal "f") =
        .ok blinkerText.toUTF8.toList ∧
      decodeUtf8 blinkerText.toUTF8.toList = .ok blinkerText ∧
      Board.ofText blinkerText = .ok blinker ∧ Rule.parse "B3/S23" = .ok .gameOfLife ∧
      0 ∉ Rule.gameOfLife.birth ∧ blinker.width + 3 < repeatLimit ∧
      ((script blinkerArguments).run (.stored (some 2) "")
          (Transcript.ofFile blinkerText.toUTF8.toList)).1.output =
        "\x1b[H\x1b[2J █ \n █ \n █ \nGeneration 0  Population 3\n" ++
          "\x1b[H\x1b[2J   \n███\n   \nGeneration 1  Population 3\n\n" ∧
      ((script blinkerArguments).run (.stored (some 2) "")
          (Transcript.ofFile blinkerText.toUTF8.toList)).2 = .exit 0 := by
  have hbytes : (Transcript.ofFile blinkerText.toUTF8.toList).store.read (Path.normal "f") =
      .ok blinkerText.toUTF8.toList := by
    rw [Path.normal_f]
    exact Transcript.read_ofFile _
  have hdecode : decodeUtf8 blinkerText.toUTF8.toList = .ok blinkerText := by decide +kernel
  have hrule : Rule.parse "B3/S23" = .ok .gameOfLife := by rfl
  have hbirth : 0 ∉ Rule.gameOfLife.birth := by decide
  have hlimit : blinker.width + 3 < repeatLimit := by decide
  have hshows := life_shows_generations (.stored (some 2) "") readArguments_blinker (n := 3) rfl rfl
    rfl rfl hrule hbirth (Transcript.ofFile blinkerText.toUTF8.toList) hbytes hdecode
    ofText_blinkerText hlimit
  have helapsed : ∀ i, 0 < i → i < 2 → waitAfter (.stored (some 2) "") blinkerCommand
      (Transcript.ofFile blinkerText.toUTF8.toList) i = .elapsed := by
    intro i hi hlt
    obtain rfl : i = 1 := by omega
    rfl
  obtain ⟨after, houtput, -, hsaves⟩ := hshows.interrupted 2 (by decide) (by decide) helapsed rfl
  have htext : (Transcript.ofFile blinkerText.toUTF8.toList).output ++
      (generationsText blinker .gameOfLife 2 ++ "\n") =
        "\x1b[H\x1b[2J █ \n █ \n █ \nGeneration 0  Population 3\n" ++
          "\x1b[H\x1b[2J   \n███\n   \nGeneration 1  Population 3\n\n" := by decide
  refine ⟨readArguments_blinker, hbytes, hdecode, ofText_blinkerText, hrule, hbirth, hlimit, ?_⟩
  rw [hsaves.eq_of_plain rfl]
  exact ⟨houtput.trans htext, rfl⟩

end Command

end SubstitutionAutomata
