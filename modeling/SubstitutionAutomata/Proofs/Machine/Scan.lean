import SubstitutionAutomata.Proofs.Machine.Run

/-! # Scans over the tape

The tape is a list of cells to the left of the head, nearest first, and the cells from the head on.
A machine that stays in its state passes over cells in one direction, and may rewrite each. -/

namespace SubstitutionAutomata

open Text

/-- The table rewrites a cell and moves on. -/
def Definition.Entry (d : Definition) (state : String) (x s : Char) (direction : Direction)
    (next : String) : Prop :=
  d.transition? state x.toString = some ⟨state, x.toString, s.toString, direction, next⟩

instance (d : Definition) (state : String) (x s : Char) (direction : Direction) (next : String) :
    Decidable (d.Entry state x s direction next) :=
  inferInstanceAs (Decidable (_ = _))

namespace Configuration

/-- The head on the first of some cells. -/
def onCells (l : List Char) (state : String) : List Char → Configuration
  | [] => ⟨String.ofList l.reverse, state, "", ""⟩
  | x :: r => ⟨String.ofList l.reverse, state, x.toString, String.ofList r⟩

theorem tape_onCells (l : List Char) (state : String) (cells : List Char) :
    (onCells l state cells).tape = String.ofList (l.reverse ++ cells) := by
  rw [← String.toList_inj]
  cases cells <;> simp [onCells, tape, Char.toString]

theorem position_onCells (l : List Char) (state : String) (cells : List Char) :
    (onCells l state cells).position = l.length := by
  cases cells <;> simp [onCells, position]

theorem cursor_onCells_ne {x : Char} (h : isWord x = true) (l : List Char) (state : String)
    (r : List Char) : (onCells l state (x :: r)).cursor ≠ "\n" :=
  cursor_ne_of_isWord rfl h

/-- The head on the cell before some cells. -/
def before (l : List Char) (state : String) (r : List Char) : Configuration :=
  match l with
  | [] => onCells [] state r
  | x :: l => onCells l state (x :: r)

/-- There is a cell to move to, and it holds a word character. -/
def Open (cells : List Char) : Prop := cells.head?.any isWord = true

instance (cells : List Char) : Decidable (Open cells) := inferInstanceAs (Decidable (_ = true))

theorem open_append {xs r : List Char} (hxs : ∀ x ∈ xs, isWord x = true) (hr : Open r) :
    Open (xs ++ r) := by
  cases xs with
  | nil => exact hr
  | cons x xs => exact hxs x (List.mem_cons_self ..)

variable {d : Definition} {state next : String} {x s y : Char} {l r : List Char}

theorem step?_right (h : d.Entry state x s .right next) :
    (onCells l state (x :: r)).step? d =
      if Open r then some (onCells (s :: l) next r) else none := by
  rw [Definition.Entry] at h
  simp only [onCells, step?, h, moveRight?]
  cases r with
  | nil => simp [Open]
  | cons y r => simp [Open, Char.toString]

theorem step?_left (h : d.Entry state x s .left next) :
    (onCells l state (x :: r)).step? d =
      if Open l then some (before l next (s :: r)) else none := by
  rw [Definition.Entry] at h
  simp only [onCells, step?, h, moveLeft?]
  cases l with
  | nil => simp [Open]
  | cons y l => simp [Open, before, onCells, Char.toString]

theorem reaches_step_right (h : d.Entry state x s .right next) (hr : Open r) :
    Reaches d (onCells l state (x :: r)) (onCells (s :: l) next r) := by
  refine .single ?_
  rw [step?_right h, if_pos hr]

theorem reaches_step_left (h : d.Entry state x s .left next) (hl : Open l) :
    Reaches d (onCells l state (x :: r)) (before l next (s :: r)) := by
  refine .single ?_
  rw [step?_left h, if_pos hl]

/-- A scan to the right ends on the first cell after those that it passes. -/
theorem reaches_right (xs : List Char) (h : ∀ x ∈ xs, d.Entry state x x .right state)
    (hxs : ∀ x ∈ xs, isWord x = true) (hr : Open r) :
    Reaches d (onCells l state (xs ++ r)) (onCells (xs.reverse ++ l) state r) := by
  induction xs generalizing l with
  | nil => exact .refl
  | cons x xs ih =>
      have hrest : ∀ z ∈ xs, isWord z = true := fun z hz => hxs z (List.mem_cons_of_mem x hz)
      have hscan := @ih (x :: l) (fun z hz => h z (List.mem_cons_of_mem x hz)) hrest
      rw [List.cons_append, List.reverse_cons, List.append_assoc]
      exact (reaches_step_right (h x (List.mem_cons_self ..)) (open_append hrest hr)).trans hscan

/-- A scan to the left rewrites every cell and ends on the first one after them. -/
theorem reaches_left {α : Type} (read written : α → Char) (vs : List α)
    (h : ∀ v ∈ vs, d.Entry state (read v) (written v) .left state)
    (hvs : ∀ v ∈ vs, isWord (read v) = true) (hy : isWord y = true) :
    Reaches d (before (vs.map read ++ y :: l) state r)
      (onCells l state (y :: ((vs.map written).reverse ++ r))) := by
  induction vs generalizing r with
  | nil => exact .refl
  | cons v vs ih =>
      have hrest : ∀ u ∈ vs, isWord (read u) = true := fun u hu => hvs u (List.mem_cons_of_mem v hu)
      have hopen : Open (vs.map read ++ y :: l) := by
        refine open_append ?_ hy
        simpa using hrest
      have hscan := @ih (written v :: r) (fun u hu => h u (List.mem_cons_of_mem v hu)) hrest
      rw [List.map_cons, List.map_cons, List.reverse_cons, List.append_assoc]
      exact (reaches_step_left (h v (List.mem_cons_self ..)) hopen).trans hscan

/-- The head writes a cell, turns back and rewrites all cells down to one where it stops. -/
theorem reaches_turn_left {α : Type} (read written : α → Char) (vs : List α)
    (hturn : d.Entry state x s .left next)
    (h : ∀ v ∈ vs, d.Entry next (read v) (written v) .left next)
    (hvs : ∀ v ∈ vs, isWord (read v) = true) (hy : isWord y = true) :
    Reaches d (onCells ((vs.map read).reverse ++ y :: l) state (x :: r))
      (onCells l next (y :: (vs.map written ++ s :: r))) := by
  have hopen : Open (vs.reverse.map read ++ y :: l) := by
    refine open_append ?_ hy
    simpa using hvs
  have hwrite := reaches_step_left (r := r) hturn hopen
  have hscan : Reaches d (before (vs.reverse.map read ++ y :: l) next (s :: r))
      (onCells l next (y :: ((vs.reverse.map written).reverse ++ s :: r))) :=
    reaches_left read written vs.reverse (fun v hv => h v (List.mem_reverse.mp hv))
      (fun v hv => hvs v (List.mem_reverse.mp hv)) hy
  rw [← List.map_reverse, List.reverse_reverse] at hscan
  rw [← List.map_reverse]
  exact hwrite.trans hscan

/-- The head starts on the first cell of the content. -/
theorem start_eq_onCells (d : Definition) (length : Int) (state : String) {cells : List Char}
    (h : cells ≠ []) :
    Tape.start ⟨d, length, Tape.defaultEmptySymbol⟩ (String.ofList cells) state =
      onCells (List.replicate (length / 2).toNat '_') state
        (cells ++ List.replicate (length / 2).toNat '_') := by
  have hpadding : Tape.padding ⟨d, length, Tape.defaultEmptySymbol⟩ =
      String.ofList (List.replicate (length / 2).toNat '_') := by
    rw [← String.toList_inj, Tape.toList_padding, String.toList_ofList]
  cases cells with
  | nil => exact absurd rfl h
  | cons x cells => simp [Tape.start, onCells, hpadding]

end Configuration

end SubstitutionAutomata
