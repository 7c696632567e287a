import SubstitutionAutomata.Command.Compare
import SubstitutionAutomata.Proofs.Engine.Run
import SubstitutionAutomata.Proofs.Life.Compile
import SubstitutionAutomata.Proofs.Life.Generation

/-! # The engine and the reference automaton

On a bordered board every generation of the engine is the generation of the reference automaton,
and its replacements are the cells that the generation changes. -/

namespace SubstitutionAutomata

open Regex

/-! ## One generation -/

/-- An engine whose buffer shows a board of cells that are 0 or 1. -/
structure Shows (l : Layout) (rule : Rule) (e : Engine) (b : Board) : Prop where
  pattern : rule.pattern l.stride = .ok e.pattern
  bordered : l.bordered = true
  height : b.height = l.height
  width : b.width = l.width
  cells : ∀ y x, b.cell y x ≤ 1
  buffer : e.buffer = String.ofList (l.encodeBoard b)

theorem mem_differences_iff (a b : Board) (y x : ℕ) :
    (y, x) ∈ Command.differences a b ↔ y < a.height ∧ x < a.width ∧ a.cell y x ≠ b.cell y x := by
  simp [Command.differences, and_assoc]

theorem differences_self (b : Board) : Command.differences b b = [] := by
  rw [List.eq_nil_iff_forall_not_mem]
  rintro ⟨y, x⟩ h
  exact ((mem_differences_iff b b y x).mp h).2.2 rfl

theorem nodup_differences (a b : Board) : (Command.differences a b).Nodup :=
  (List.nodup_range.product List.nodup_range).filter _

/-- A cell changes exactly if the rule says so. -/
theorem Board.cell_ne_convolved_iff {b : Board} (rule : Rule) (hcells : ∀ y x, b.cell y x ≤ 1)
    {y x : ℕ} (hy : y < b.height) (hx : x < b.width) :
    b.cell y x ≠ (b.convolved rule).cell y x ↔
      rule.changes (b.cell y x = 1) (b.neighborSum y x) = true := by
  rw [b.cell_convolved rule hcells hy hx]
  have hone := hcells y x
  split <;> simp_all
  omega

namespace Layout

variable (l : Layout) (b : Board)

/-- The flips of a pass are as many as the cells in which the next board differs. -/
theorem countP_flips (hb : l.bordered = true) (hheight : b.height = l.height)
    (hwidth : b.width = l.width) (hcells : ∀ y x, b.cell y x ≤ 1) (rule : Rule) :
    ((List.range (l.encodeBoard b).length).countP fun i =>
        rule.Flips l.stride (l.encodeBoard b) i) =
      (Command.differences b (b.convolved rule)).length := by
  have hstride := stride_of_bordered l hb
  have hinjective : ∀ p ∈ Command.differences b (b.convolved rule),
      ∀ q ∈ Command.differences b (b.convolved rule),
        l.index p.1 p.2 = l.index q.1 q.2 → p = q := by
    rintro ⟨y, x⟩ hp ⟨y', x'⟩ hq hindex
    have hx := ((mem_differences_iff _ _ _ _).mp hp).2.1
    have hx' := ((mem_differences_iff _ _ _ _).mp hq).2.1
    rw [index_of_bordered l hb, index_of_bordered l hb] at hindex
    obtain ⟨hrow, hcolumn⟩ := place_inj (by omega) (by omega) hindex
    simp only [Prod.mk.injEq]
    omega
  have hperm : ((List.range (l.encodeBoard b).length).filter fun i =>
        rule.Flips l.stride (l.encodeBoard b) i).Perm
      ((Command.differences b (b.convolved rule)).map fun p => l.index p.1 p.2) := by
    rw [List.perm_ext_iff_of_nodup (List.nodup_range.filter _)
      ((nodup_differences _ _).map_on hinjective)]
    intro i
    simp only [List.mem_filter, List.mem_range, decide_eq_true_eq, List.mem_map, Prod.exists,
      mem_differences_iff]
    constructor
    · rintro ⟨-, hflips⟩
      obtain ⟨y, x, hy, hx, rfl, hchanges⟩ :=
        (flips_encodeBoard_iff l b hb hheight hwidth hcells rule i).mp hflips
      refine ⟨y, x, ⟨by omega, by omega, ?_⟩, rfl⟩
      exact (b.cell_ne_convolved_iff rule hcells (by omega) (by omega)).mpr hchanges
    · rintro ⟨y, x, ⟨hy, hx, hne⟩, rfl⟩
      have hchanges := (b.cell_ne_convolved_iff rule hcells hy hx).mp hne
      have hflips := (flips_index_iff l b hb hheight hwidth hcells rule (by omega)
        (by omega)).mpr hchanges
      exact ⟨by have := hflips.below; omega, hflips⟩
  rw [List.countP_eq_length_filter, hperm.length_eq, List.length_map]

end Layout

variable {l : Layout} {rule : Rule} {e : Engine} {b : Board}

/-- One generation of the engine is one generation of the reference automaton. -/
theorem Shows.step (h : Shows l rule e b) :
    ∃ e', e.step false = (e', .ok (Command.differences b (b.convolved rule)).length) ∧
      Shows l rule e' (b.convolved rule) := by
  have hs : 3 ≤ l.stride := by
    rw [l.stride_of_bordered h.bordered]
    omega
  have hpass := Rule.apply_of_pattern hs h.pattern e.buffer
  rw [h.buffer, String.toList_ofList,
    ← l.encodeBoard_convolved b h.bordered h.height h.width h.cells,
    l.countP_flips b h.bordered h.height h.width h.cells, ← h.buffer] at hpass
  exact ⟨_, Engine.step_eq_of_apply hpass, h.pattern, h.bordered, h.height, h.width,
    b.convolved_le_one rule, rfl⟩

/-! ## Whole runs -/

namespace Reference

theorem steps_succ (recording : Bool) (r : Reference) (n : ℕ) :
    steps recording (n + 1) r = (steps recording n r).step recording := by
  induction n generalizing r with
  | zero => rfl
  | succ n ih => exact ih (r.step recording)

theorem rule_steps (r : Reference) (n : ℕ) : (steps false n r).rule = r.rule := by
  induction n generalizing r with
  | zero => rfl
  | succ n ih => exact ih (r.step false)

theorem board_steps_succ (r : Reference) (n : ℕ) :
    (steps false (n + 1) r).board = (steps false n r).board.convolved r.rule := by
  rw [steps_succ, ← rule_steps r n]
  rfl

end Reference

theorem Shows.after {r : Reference} (h : Shows l r.rule e r.board) (n : ℕ) :
    Shows l r.rule (e.after n) (Reference.steps false n r).board := by
  induction n generalizing e r with
  | zero => exact h
  | succ n ih =>
      obtain ⟨e', hstep, hnext⟩ := h.step
      have hrun := @ih _ (r.step false) hnext
      rwa [Engine.after, hstep]

theorem Shows.decode (h : Shows l rule e b) : l.decode e.buffer = .ok b := by
  rw [h.buffer, l.decode_encodeBoard_eq_binary b h.height h.width, Board.binary_eq_self h.cells]

theorem Shows.encode (h : Shows l rule e b) : l.encode (.board b) = .ok e.buffer := by
  rw [Layout.encode, if_pos ⟨h.height, h.width⟩, h.buffer]

/-- A comparison of a bordered board never finds a difference. -/
theorem Shows.compareFrom {r : Reference} (h : Shows l r.rule e r.board)
    (a : Command.CompareArguments) (n generation : ℕ) :
    Command.compareFrom a n generation ⟨l, e⟩ r =
      .printLine s!"Regex engine matches the reference for {a.generations} generations"
        fun _ => .exit 0 := by
  induction n generalizing e r generation with
  | zero => rfl
  | succ n ih =>
      obtain ⟨e', hstep, hnext⟩ := h.step
      have hboard : LifeEngine.board ⟨l, e'⟩ = .ok (r.step false).board := hnext.decode
      have hsame := differences_self (r.step false).board
      rw [Command.compareFrom]
      simp only [hstep, hboard, hsame]
      exact @ih _ (r.step false) hnext (generation + 1)

theorem Layout.ofSize_eq_ok (l : Layout) : ofSize l.width l.height l.bordered = .ok l := by
  simp [ofSize, l.width_pos, l.height_pos]

/-- The engine of a board of a layout's shape, if the rule has a pattern at its stride. -/
theorem LifeEngine.ofCells_board (l : Layout) (rule : Rule) {b : Board}
    (hheight : b.height = l.height) (hwidth : b.width = l.width) :
    ofCells (.board b) rule l.bordered = match rule.pattern l.stride with
      | .error e => .error (.pattern e)
      | .ok p => .ok ⟨l, .ofBuffer p (String.ofList (l.encodeBoard b))⟩ := by
  have hlayout : layoutOf (.board b) l.bordered = .ok l :=
    calc layoutOf (.board b) l.bordered
        = (Layout.ofSize b.width b.height l.bordered).mapError .layout := rfl
      _ = (Except.ok l).mapError .layout := by rw [hheight, hwidth, l.ofSize_eq_ok]
      _ = .ok l := rfl
  have hencode := (l.encode_board_eq_ok_iff b _).mpr ⟨hheight, hwidth, rfl⟩
  cases hpattern : rule.pattern l.stride <;> simp only [ofCells, hlayout, hencode, hpattern]

theorem LifeEngine.exists_pattern_of_ofCells (l : Layout) {rule : Rule} {b : Board}
    (hheight : b.height = l.height) (hwidth : b.width = l.width) {e : LifeEngine}
    (h : ofCells (.board b) rule l.bordered = .ok e) :
    ∃ p, rule.pattern l.stride = .ok p ∧
      e = ⟨l, .ofBuffer p (String.ofList (l.encodeBoard b))⟩ := by
  rw [ofCells_board l rule hheight hwidth] at h
  split at h
  · cases h
  · rename_i p hp
    exact ⟨p, hp, (Except.ok.inj h).symm⟩

/-- The engine of a bordered board shows the board. -/
theorem Shows.ofCells {b : Board} {rule : Rule} (hheight : 0 < b.height) (hwidth : 0 < b.width)
    (hcells : ∀ y x, b.cell y x ≤ 1) {e : LifeEngine}
    (h : LifeEngine.ofCells (.board b) rule true = .ok e) :
    e.layout = ⟨b.width, b.height, true, hwidth, hheight⟩ ∧ Shows e.layout rule e.engine b := by
  obtain ⟨p, hp, rfl⟩ := LifeEngine.exists_pattern_of_ofCells
    ⟨b.width, b.height, true, hwidth, hheight⟩ rfl rfl h
  exact ⟨rfl, hp, rfl, rfl, rfl, hcells, rfl⟩

theorem LifeEngine.exists_ofCells (b : Board) (rule : Rule) (hheight : 0 < b.height)
    (hwidth : 0 < b.width) (hbirth : 0 ∉ rule.birth) (hlimit : b.width + 3 < repeatLimit) :
    ∃ e, ofCells (.board b) rule true = .ok e := by
  let l : Layout := ⟨b.width, b.height, true, hwidth, hheight⟩
  obtain ⟨p, hp, -⟩ := rule.exists_pattern hbirth (Nat.le_add_left 3 b.width) hlimit
  have hpattern : rule.pattern l.stride = .ok p := hp
  have hengine := ofCells_board l rule (b := b) rfl rfl
  rw [hpattern] at hengine
  exact ⟨_, hengine⟩

/-- The board of the reference automaton after so many generations. -/
def Reference.boardAfter (b : Board) (rule : Rule) (n : ℕ) : Board :=
  (steps false n (.ofBoard b rule)).board

/-- On a bordered board of cells that are 0 or 1 the engine goes through the generations of the
reference automaton, each step replaces as many characters as there are cells that change, and the
compare command reports no mismatch. -/
theorem LifeEngine.generations_eq_reference (b : Board) (rule : Rule) (hheight : 0 < b.height)
    (hwidth : 0 < b.width) (hcells : ∀ y x, b.cell y x ≤ 1) (hbirth : 0 ∉ rule.birth)
    (hlimit : b.width + 3 < repeatLimit) :
    ∃ e, ofCells (.board b) rule true = .ok e ∧
      e.layout = ⟨b.width, b.height, true, hwidth, hheight⟩ ∧
      (∀ n,
        e.layout.encode (.board (Reference.boardAfter b rule n)) =
          .ok (e.engine.after n).buffer ∧
        board ⟨e.layout, e.engine.after n⟩ = .ok (Reference.boardAfter b rule n) ∧
        ((e.engine.after n).step false).2 =
          .ok (Command.differences (Reference.boardAfter b rule n)
            (Reference.boardAfter b rule (n + 1))).length) ∧
      ∀ verbose a,
        Command.withLifeEngine verbose b rule true
            (fun e => Command.compareFrom a a.generations.toNat 1 e (.ofBoard b rule)) =
          Command.Script.debug verbose "pattern"
            s!"Compiled {e.engine.pattern.size} clauses for {rule} at stride {e.layout.stride}"
            fun _ => Command.Script.printLine
              s!"Regex engine matches the reference for {a.generations} generations"
              fun _ => .exit 0 := by
  obtain ⟨e, he⟩ := exists_ofCells b rule hheight hwidth hbirth hlimit
  obtain ⟨hlayout, hshows⟩ := Shows.ofCells hheight hwidth hcells he
  have hstart : Shows e.layout (Reference.ofBoard b rule).rule e.engine
      (Reference.ofBoard b rule).board := hshows
  refine ⟨e, he, hlayout, ?_, ?_⟩
  · intro n
    have hafter := hstart.after n
    obtain ⟨e', hstep, -⟩ := hafter.step
    refine ⟨hafter.encode, hafter.decode, ?_⟩
    rw [hstep, Reference.boardAfter, Reference.boardAfter, Reference.board_steps_succ]
  · intro verbose a
    have hcompare := hstart.compareFrom a a.generations.toNat 1
    rw [Command.withLifeEngine, he]
    simp only [hcompare]

/-- Four cells of a blinker change in its first generation. -/
theorem LifeEngine.generations_eq_reference_blinker :
    ∃ b : Board, b = .ofRows 3 [[0, 1, 0], [0, 1, 0], [0, 1, 0]] ∧ 0 < b.height ∧ 0 < b.width ∧
      (∀ y x, b.cell y x ≤ 1) ∧ 0 ∉ Rule.gameOfLife.birth ∧ b.width + 3 < repeatLimit ∧
      ∃ e, ofCells (.board b) Rule.gameOfLife true = .ok e ∧
        (e.engine.step false).2 = .ok 4 ∧
        board ⟨e.layout, e.engine.after 2⟩ = .ok (Reference.boardAfter b Rule.gameOfLife 2) := by
  let b : Board := .ofRows 3 [[0, 1, 0], [0, 1, 0], [0, 1, 0]]
  have hcells : ∀ y x, b.cell y x ≤ 1 := by
    have hsmall : ∀ y < 3, ∀ x < 3,
        ([[0, 1, 0], [0, 1, 0], [0, 1, 0]].getD y []).getD x 0 ≤ 1 := by decide
    intro y x
    rw [show b = .ofRows 3 [[0, 1, 0], [0, 1, 0], [0, 1, 0]] from rfl, Board.ofRows,
      Board.cell_tabulate]
    split
    · rename_i h
      exact hsmall y h.1 x h.2
    · omega
  have hbirth : 0 ∉ Rule.gameOfLife.birth := by decide
  have hlimit : b.width + 3 < repeatLimit := by decide
  have hcount : (Command.differences (Reference.boardAfter b Rule.gameOfLife 0)
      (Reference.boardAfter b Rule.gameOfLife 1)).length = 4 := by decide
  obtain ⟨e, he, -, hgenerations, -⟩ := generations_eq_reference b Rule.gameOfLife (by decide)
    (by decide) hcells hbirth hlimit
  have hfirst := (hgenerations 0).2.2
  rw [hcount] at hfirst
  exact ⟨b, rfl, by decide, by decide, hcells, hbirth, hlimit, e, he, hfirst,
    (hgenerations 2).2.1⟩

end SubstitutionAutomata
