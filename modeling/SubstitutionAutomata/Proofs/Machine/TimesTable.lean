import SubstitutionAutomata.Machine.Preset
import SubstitutionAutomata.Proofs.Machine.Scan

/-! # Checking a product

For every letter a the machine crosses out all letters b, and one c for each of them; then it
restores the b. It gets stuck on F if it looks for a c and there is none, and on a c that is left
when all a are marked. The inner loop crosses out one b and one c, the outer loop marks one a. The
table has no entry for the cell after the letters a unless it is a b, so that without a b the
machine never accepts. -/

namespace SubstitutionAutomata.TimesTable

open SubstitutionAutomata.Configuration Definition Text

/-! ## The table -/

/-- The definition that declares the accepting state of the preset. -/
def table : Definition :=
  ⟨Preset.timesTable.transitions, [
    ⟨"Q0", "a", "X", .right, "Q1"⟩, ⟨"Q0", "b", "b", .right, "Q5"⟩,
    ⟨"Q1", "a", "a", .right, "Q1"⟩, ⟨"Q1", "b", "Y", .right, "Q2"⟩,
    ⟨"Q1", "Z", "Z", .left, "Q4"⟩,
    ⟨"Q2", "Z", "Z", .right, "Q2"⟩, ⟨"Q2", "b", "b", .right, "Q2"⟩,
    ⟨"Q2", "c", "Z", .left, "Q3"⟩,
    ⟨"Q3", "Z", "Z", .left, "Q3"⟩, ⟨"Q3", "b", "b", .left, "Q3"⟩,
    ⟨"Q3", "Y", "Y", .right, "Q1"⟩,
    ⟨"Q4", "a", "a", .left, "Q4"⟩, ⟨"Q4", "Y", "b", .left, "Q4"⟩,
    ⟨"Q4", "X", "X", .right, "Q0"⟩,
    ⟨"Q5", "Z", "Z", .right, "Q5"⟩, ⟨"Q5", "b", "b", .right, "Q5"⟩,
    ⟨"Q5", "F", "F", .left, "Q6"⟩],
    Preset.timesTable.accepting, List.cons_ne_nil _ _⟩

theorem definition_eq :
    Preset.timesTable.definition Preset.timesTable.accepting = .ok table := by
  decide

theorem sharesDirections : table.SharesDirections := by
  unfold SharesDirections
  decide

/-- What stands between the crossed b and the letters c. -/
def Passed (x : Char) : Prop := x = 'b' ∨ x = 'Z'

/-- What stands between the mark on an a and the letters b, once these are crossed out. -/
def Rewound (x : Char) : Prop := x = 'a' ∨ x = 'Y'

/-- The head restores the crossed b. -/
def restored (x : Char) : Char := if x = 'Y' then 'b' else x

theorem entry_mark : table.Entry "Q0" 'a' 'X' .right "Q1" := by rfl

theorem entry_seek : table.Entry "Q1" 'a' 'a' .right "Q1" := by rfl

theorem entry_cross : table.Entry "Q1" 'b' 'Y' .right "Q2" := by rfl

theorem entry_pass {x : Char} (h : Passed x) : table.Entry "Q2" x x .right "Q2" := by
  rcases h with rfl | rfl <;> rfl

theorem entry_cross_out : table.Entry "Q2" 'c' 'Z' .left "Q3" := by rfl

theorem entry_return {x : Char} (h : Passed x) : table.Entry "Q3" x x .left "Q3" := by
  rcases h with rfl | rfl <;> rfl

theorem entry_turn : table.Entry "Q3" 'Y' 'Y' .right "Q1" := by rfl

theorem entry_crossed : table.Entry "Q1" 'Z' 'Z' .left "Q4" := by rfl

theorem entry_restore {x : Char} (h : Rewound x) :
    table.Entry "Q4" x (restored x) .left "Q4" := by
  rcases h with rfl | rfl <;> rfl

theorem entry_next : table.Entry "Q4" 'X' 'X' .right "Q0" := by rfl

theorem entry_check : table.Entry "Q0" 'b' 'b' .right "Q5" := by rfl

theorem entry_pass_check {x : Char} (h : Passed x) : table.Entry "Q5" x x .right "Q5" := by
  rcases h with rfl | rfl <;> rfl

theorem entry_accept : table.Entry "Q5" 'F' 'F' .left "Q6" := by rfl

theorem Passed.isWord {x : Char} (h : Passed x) : Text.isWord x = true := by
  rcases h with rfl | rfl <;> exact isWord_of_isAlphanum _ rfl

theorem Rewound.isWord {x : Char} (h : Rewound x) : Text.isWord x = true := by
  rcases h with rfl | rfl <;> exact isWord_of_isAlphanum _ rfl

/-! ## The tape -/

/-- The letters b that are left, and a mark for every c that is crossed out. -/
def middle (b z : ℕ) : List Char := List.replicate b 'b' ++ List.replicate z 'Z'

/-- The cells after the crossed b. -/
def cells (b z c : ℕ) (r : List Char) : List Char :=
  middle b z ++ (List.replicate c 'c' ++ 'F' :: r)

theorem passed_of_mem_middle {b z : ℕ} {x : Char} (h : x ∈ middle b z) : Passed x := by
  rw [middle, List.mem_append] at h
  exact h.imp List.eq_of_mem_replicate List.eq_of_mem_replicate

theorem middle_succ (b z : ℕ) : middle (b + 1) z = 'b' :: middle b z := by
  rw [middle, List.replicate_succ, List.cons_append, middle]

theorem cells_succ (b z c : ℕ) (r : List Char) : cells (b + 1) z c r = 'b' :: cells b z c r := by
  rw [cells, middle_succ, List.cons_append, cells]

theorem cells_zero_succ (z c : ℕ) (r : List Char) : cells 0 (z + 1) c r = 'Z' :: cells 0 z c r := by
  simp [cells, middle, List.replicate_succ]

theorem middle_append_cons (b z : ℕ) (r : List Char) :
    middle b z ++ 'Z' :: r = middle b (z + 1) ++ r := by
  simp [middle, List.replicate_succ']

theorem open_end (c : ℕ) (r : List Char) : Open (List.replicate c 'c' ++ 'F' :: r) := by
  cases c <;> exact isWord_of_isAlphanum _ rfl

theorem open_cells (b z c : ℕ) (r : List Char) : Open (cells b z c r) :=
  open_append (fun _ hx => (passed_of_mem_middle hx).isWord) (open_end c r)

/-! ## The inner loop -/

variable (l r : List Char)

/-- The head passes the middle in a state that leaves it as it is. -/
theorem reaches_past_middle {state : String}
    (h : ∀ x, Passed x → table.Entry state x x .right state) (b z c : ℕ) :
    Reaches table (onCells l state (cells b z c r))
      (onCells ((middle b z).reverse ++ l) state (List.replicate c 'c' ++ 'F' :: r)) :=
  reaches_right (middle b z) (fun x hx => h x (passed_of_mem_middle hx))
    (fun _ hx => (passed_of_mem_middle hx).isWord) (open_end c r)

/-- The head crosses out a b and looks for a c. -/
theorem reaches_first_c (b z c : ℕ) :
    Reaches table (onCells l "Q1" (cells (b + 1) z c r))
      (onCells ((middle b z).reverse ++ 'Y' :: l) "Q2" (List.replicate c 'c' ++ 'F' :: r)) := by
  have hcross : Reaches table (onCells l "Q1" (cells (b + 1) z c r))
      (onCells ('Y' :: l) "Q2" (cells b z c r)) := by
    rw [cells_succ]
    exact reaches_step_right entry_cross (open_cells b z c r)
  exact hcross.trans (reaches_past_middle ('Y' :: l) r (fun _ hx => entry_pass hx) b z c)

/-- One b and one c are crossed out. -/
theorem reaches_cross (b z c : ℕ) :
    Reaches table (onCells l "Q1" (cells (b + 1) z (c + 1) r))
      (onCells ('Y' :: l) "Q1" (cells b (z + 1) c r)) := by
  let rest := List.replicate c 'c' ++ 'F' :: r
  have hpassed : ∀ x ∈ middle b z, Passed x := fun _ hx => passed_of_mem_middle hx
  have hfirst : Reaches table (onCells l "Q1" (cells (b + 1) z (c + 1) r))
      (onCells ((middle b z).reverse ++ 'Y' :: l) "Q2" ('c' :: rest)) :=
    reaches_first_c l r b z (c + 1)
  have hreturn : Reaches table (onCells ((middle b z).reverse ++ 'Y' :: l) "Q2" ('c' :: rest))
      (onCells l "Q3" ('Y' :: cells b (z + 1) c r)) := by
    rw [cells, ← middle_append_cons]
    simpa using reaches_turn_left id id (middle b z) entry_cross_out
      (fun x hx => entry_return (hpassed x hx)) (fun x hx => (hpassed x hx).isWord)
      (isWord_of_isAlphanum 'Y' rfl)
  have hturn : Reaches table (onCells l "Q3" ('Y' :: cells b (z + 1) c r))
      (onCells ('Y' :: l) "Q1" (cells b (z + 1) c r)) :=
    reaches_step_right entry_turn (open_cells b (z + 1) c r)
  exact hfirst.trans (hreturn.trans hturn)

/-- All letters b are crossed out, if there is a c for each. -/
theorem reaches_crossed (b z c : ℕ) :
    Reaches table (onCells l "Q1" (cells b z (c + b) r))
      (onCells (List.replicate b 'Y' ++ l) "Q1" (cells 0 (z + b) c r)) := by
  induction b generalizing l z with
  | zero => exact .refl
  | succ b ih =>
      have hcross := reaches_cross l r b z (c + b)
      have hrest := ih ('Y' :: l) (z + 1)
      rw [Nat.add_assoc, Nat.add_comm 1] at hrest
      rw [List.replicate_succ', List.append_assoc, List.singleton_append]
      exact hcross.trans hrest

/-- With fewer letters c, the machine looks for one and finds F. -/
theorem reaches_no_c (b z c : ℕ) (h : c < b) :
    ∃ l', Reaches table (onCells l "Q1" (cells b z c r)) (onCells l' "Q2" ('F' :: r)) := by
  induction c generalizing b l z with
  | zero =>
      obtain ⟨b, rfl⟩ := Nat.exists_eq_add_one.mpr h
      exact ⟨_, reaches_first_c l r b z 0⟩
  | succ c ih =>
      obtain ⟨b, rfl⟩ := Nat.exists_eq_add_one.mpr (Nat.zero_lt_of_lt h)
      obtain ⟨l', hrest⟩ := ih ('Y' :: l) b (z + 1) (Nat.lt_of_succ_lt_succ h)
      exact ⟨l', (reaches_cross l r b z c).trans hrest⟩

/-! ## The outer loop -/

/-- The head is on the first of the letters a that are left, or behind them. -/
def round (i b z c : ℕ) : Configuration :=
  onCells l "Q0" (List.replicate i 'a' ++ cells b z c r)

theorem isWord_of_mem_letters {i : ℕ} {x : Char} (h : x ∈ List.replicate i 'a') :
    isWord x = true := by
  cases List.eq_of_mem_replicate h
  exact isWord_of_isAlphanum 'a' rfl

theorem open_letters (i b z c : ℕ) : Open (List.replicate i 'a' ++ cells b z c r) :=
  open_append (fun _ hx => isWord_of_mem_letters hx) (open_cells b z c r)

/-- The head marks an a and passes the others. -/
theorem reaches_marked (i b z c : ℕ) :
    Reaches table (round l r (i + 1) b z c)
      (onCells (List.replicate i 'a' ++ 'X' :: l) "Q1" (cells b z c r)) := by
  have hmark : Reaches table (round l r (i + 1) b z c)
      (onCells ('X' :: l) "Q1" (List.replicate i 'a' ++ cells b z c r)) :=
    reaches_step_right entry_mark (open_letters r i b z c)
  have hseek : Reaches table (onCells ('X' :: l) "Q1" (List.replicate i 'a' ++ cells b z c r))
      (onCells ((List.replicate i 'a').reverse ++ 'X' :: l) "Q1" (cells b z c r)) := by
    refine reaches_right _ ?_ (fun _ hx => isWord_of_mem_letters hx) (open_cells b z c r)
    intro x hx
    cases List.eq_of_mem_replicate hx
    exact entry_seek
  rw [List.reverse_replicate] at hseek
  exact hmark.trans hseek

/-- One a is marked, and a c is crossed out for every b. -/
theorem reaches_round (i b z c : ℕ) :
    Reaches table (round l r (i + 1) (b + 1) z (c + (b + 1)))
      (round ('X' :: l) r i (b + 1) (z + (b + 1)) c) := by
  let rewound := List.replicate i 'a' ++ List.replicate (b + 1) 'Y'
  have hrewound : ∀ x ∈ rewound, Rewound x := fun x hx =>
    (List.mem_append.mp hx).imp List.eq_of_mem_replicate List.eq_of_mem_replicate
  have hleft : List.replicate (b + 1) 'Y' ++ (List.replicate i 'a' ++ 'X' :: l) =
      rewound.reverse ++ 'X' :: l := by
    simp [rewound]
  have hcells : rewound.map restored ++ 'Z' :: cells 0 (z + b) c r =
      List.replicate i 'a' ++ cells (b + 1) (z + (b + 1)) c r := by
    rw [← cells_zero_succ]
    simp [rewound, restored, cells, middle, Nat.add_assoc]
  have hmarked := reaches_marked l r i (b + 1) z (c + (b + 1))
  have hcrossed := reaches_crossed (List.replicate i 'a' ++ 'X' :: l) r (b + 1) z c
  rw [← Nat.add_assoc z, cells_zero_succ, hleft] at hcrossed
  have hrestore : Reaches table
      (onCells (rewound.reverse ++ 'X' :: l) "Q1" ('Z' :: cells 0 (z + b) c r))
      (onCells l "Q4" ('X' :: (List.replicate i 'a' ++ cells (b + 1) (z + (b + 1)) c r))) := by
    rw [← hcells]
    simpa using reaches_turn_left id restored rewound entry_crossed
      (fun x hx => entry_restore (hrewound x hx)) (fun x hx => (hrewound x hx).isWord)
      (isWord_of_isAlphanum 'X' rfl)
  have hnext : Reaches table
      (onCells l "Q4" ('X' :: (List.replicate i 'a' ++ cells (b + 1) (z + (b + 1)) c r)))
      (round ('X' :: l) r i (b + 1) (z + (b + 1)) c) :=
    reaches_step_right entry_next (open_letters r i (b + 1) (z + (b + 1)) c)
  exact hmarked.trans (hcrossed.trans (hrestore.trans hnext))

/-- All letters a are marked. -/
theorem reaches_rounds (i b z c : ℕ) :
    Reaches table (round l r i (b + 1) z (c + i * (b + 1)))
      (round (List.replicate i 'X' ++ l) r 0 (b + 1) (z + i * (b + 1)) c) := by
  induction i generalizing l z with
  | zero =>
      rw [Nat.zero_mul]
      exact .refl
  | succ i ih =>
      have hround := reaches_round l r i b z (c + i * (b + 1))
      have hrest := ih ('X' :: l) (z + (b + 1))
      rw [Nat.add_assoc, Nat.add_comm (b + 1)] at hrest
      rw [Nat.succ_mul, ← Nat.add_assoc c, List.replicate_succ', List.append_assoc,
        List.singleton_append]
      exact hround.trans hrest

/-- With too few letters c for the letters a and b, the machine looks for one and finds F. -/
theorem reaches_short (i b z c : ℕ) (h : c < i * (b + 1)) :
    ∃ l', Reaches table (round l r i (b + 1) z c) (onCells l' "Q2" ('F' :: r)) := by
  induction i generalizing l z c with
  | zero => simp at h
  | succ i ih =>
      -- either the letters c run out in this round, or they are too few for the next ones
      by_cases hb : c < b + 1
      · obtain ⟨l', hshort⟩ := reaches_no_c (List.replicate i 'a' ++ 'X' :: l) r (b + 1) z c hb
        exact ⟨l', (reaches_marked l r i (b + 1) z c).trans hshort⟩
      · obtain ⟨c, rfl⟩ := Nat.exists_eq_add_of_le' (Nat.not_lt.mp hb)
        rw [Nat.succ_mul] at h
        obtain ⟨l', hrest⟩ := ih ('X' :: l) (z + (b + 1)) c (by omega)
        exact ⟨l', (reaches_round l r i b z c).trans hrest⟩

/-! ## Where the machine halts -/

/-- With no a left, the head looks for F. -/
theorem reaches_checked (b z c : ℕ) :
    Reaches table (round l r 0 (b + 1) z c)
      (onCells ((middle b z).reverse ++ 'b' :: l) "Q5" (List.replicate c 'c' ++ 'F' :: r)) := by
  have hcheck : Reaches table (round l r 0 (b + 1) z c)
      (onCells ('b' :: l) "Q5" (cells b z c r)) := by
    rw [round, cells_succ]
    exact reaches_step_right entry_check (open_cells b z c r)
  exact hcheck.trans (reaches_past_middle ('b' :: l) r (fun _ hx => entry_pass_check hx) b z c)

/-- If F follows the middle, the head turns back and accepts. -/
theorem reaches_accepted (b z : ℕ) :
    ∃ x l', isWord x = true ∧
      Reaches table (round l r 0 (b + 1) z 0) (onCells l' "Q6" (x :: 'F' :: r)) := by
  have hopen : Open ((middle b z).reverse ++ 'b' :: l) := by
    refine open_append ?_ (isWord_of_isAlphanum 'b' rfl)
    intro x hx
    exact (passed_of_mem_middle (List.mem_reverse.mp hx)).isWord
  have hchecked := reaches_checked l r b z 0
  have haccept := reaches_step_left (r := r) entry_accept hopen
  obtain ⟨x, l', hleft⟩ := List.exists_cons_of_ne_nil
    (show (middle b z).reverse ++ 'b' :: l ≠ [] by simp)
  rw [hleft] at hopen hchecked haccept
  exact ⟨x, l', hopen, hchecked.trans haccept⟩

theorem step?_no_c (l r : List Char) : (onCells l "Q2" ('F' :: r)).step? table = none := by rfl

theorem step?_more_c (l r : List Char) : (onCells l "Q5" ('c' :: r)).step? table = none := by rfl

theorem step?_accepted (l : List Char) (x : Char) (r : List Char) :
    (onCells l "Q6" (x :: r)).step? table = none := by rfl

/-- The state in which the machine halts compares the product with the number of letters c. -/
theorem exists_halt (i b k : ℕ) :
    ∃ l' state x r', isWord x = true ∧ (onCells l' state (x :: r')).step? table = none ∧
      Reaches table (round l r i (b + 1) 0 k) (onCells l' state (x :: r')) ∧
      (i * (b + 1) = k → state = "Q6") ∧ (k < i * (b + 1) → state = "Q2") ∧
      (i * (b + 1) < k → state = "Q5") := by
  rcases Nat.lt_trichotomy (i * (b + 1)) k with hmore | rfl | hfewer
  · obtain ⟨c, rfl⟩ := Nat.exists_eq_add_of_lt hmore
    have hrounds := reaches_rounds l r i b 0 (c + 1)
    have hchecked := reaches_checked (List.replicate i 'X' ++ l) r b (0 + i * (b + 1)) (c + 1)
    rw [Nat.add_comm (c + 1)] at hrounds
    exact ⟨_, "Q5", 'c', _, isWord_of_isAlphanum _ rfl, step?_more_c _ _,
      hrounds.trans hchecked, by omega, by omega, fun _ => rfl⟩
  · have hrounds := reaches_rounds l r i b 0 0
    obtain ⟨x, l', hx, haccepted⟩ :=
      reaches_accepted (List.replicate i 'X' ++ l) r b (0 + i * (b + 1))
    rw [Nat.zero_add] at hrounds haccepted
    exact ⟨l', "Q6", x, _, hx, step?_accepted _ _ _, hrounds.trans haccepted, fun _ => rfl,
      by omega, by omega⟩
  · obtain ⟨l', hshort⟩ := reaches_short l r i b 0 k hfewer
    exact ⟨l', "Q2", 'F', r, isWord_of_isAlphanum _ rfl, step?_no_c _ _, hshort, by omega,
      fun _ => rfl, by omega⟩

/-! ## Without a b -/

theorem step?_no_b (l : List Char) (i k : ℕ) :
    (onCells l (if i = 0 then "Q0" else "Q1") (cells 0 0 k r)).step? table = none := by
  cases i <;> cases k <;> rfl

/-- Without a b the machine gets stuck behind the letters a, of which it has marked the first. -/
theorem exists_stuck_without_b (i k : ℕ) :
    ∃ l' x r', isWord x = true ∧
      (onCells l' (if i = 0 then "Q0" else "Q1") (x :: r')).step? table = none ∧
      Reaches table (round l r i 0 0 k) (onCells l' (if i = 0 then "Q0" else "Q1") (x :: r')) := by
  obtain ⟨x, r', hend, hx⟩ : ∃ x r', cells 0 0 k r = x :: r' ∧ isWord x = true := by
    cases k with
    | zero => exact ⟨'F', r, rfl, isWord_of_isAlphanum _ rfl⟩
    | succ k => exact ⟨'c', _, rfl, isWord_of_isAlphanum _ rfl⟩
  cases i with
  | zero => exact ⟨l, x, r', hx, hend ▸ step?_no_b r l 0 k, hend ▸ .refl⟩
  | succ i =>
      have hmarked := reaches_marked l r i 0 0 k
      exact ⟨_, x, r', hx, hend ▸ step?_no_b r _ (i + 1) k, hend ▸ hmarked⟩

/-! ## The engine -/

/-- Letters a, letters b and letters c before an F. -/
def product (i j k : ℕ) : String :=
  String.ofList (List.replicate i 'a' ++ (List.replicate j 'b' ++ (List.replicate k 'c' ++ ['F'])))

theorem start_product (i j k : ℕ) (length : Int) :
    Tape.start ⟨table, length, Tape.defaultEmptySymbol⟩ (product i j k) table.initialState =
      round (List.replicate (length / 2).toNat '_') (List.replicate (length / 2).toNat '_')
        i j 0 k := by
  have hstate : table.initialState = "Q0" := by rfl
  rw [product, start_eq_onCells table length _ (by simp), hstate]
  simp [round, cells, middle]

theorem headMark_not_mem_product (i j k : ℕ) : headMark ∉ (product i j k).toList := by
  have ha : headMark ≠ 'a' := by decide
  have hb : headMark ≠ 'b' := by decide
  have hc : headMark ≠ 'c' := by decide
  have hF : headMark ≠ 'F' := by decide
  simp [product, ha, hb, hc, hF]

/-- With at least one b, the machine accepts exactly if the number of letters c is the product of
those of letters a and b; with fewer it gets stuck in Q2, with more in Q5. -/
theorem decides_product (i j k : ℕ) (length : Int) (hj : 0 < j) :
    ∃ d e final report v,
      Preset.timesTable.definition Preset.timesTable.accepting = .ok d ∧
      MachineEngine.ofContent ⟨d, length, Tape.defaultEmptySymbol⟩ (product i j k) false = .ok e ∧
      report.halted = true ∧
      (∀ limit, report.steps < limit →
        (e.engine.settle limit 0).watch Engine.unobserved () = ⟨final, (), .ok report⟩) ∧
      (MachineEngine.mk e.tape final).verdict report.halted = .ok v ∧
      (i * j = k → v.state = "Q6" ∧ v.accepted = some true) ∧
      (k < i * j → v.state = "Q2" ∧ v.accepted = some false) ∧
      (i * j < k → v.state = "Q5" ∧ v.accepted = some false) := by
  obtain ⟨b, rfl⟩ := Nat.exists_eq_add_one.mpr hj
  let padding := List.replicate (length / 2).toNat '_'
  obtain ⟨l, state, x, r, hx, hstuck, hreaches, hequal, hfewer, hmore⟩ :=
    exists_halt padding padding i b k
  have hwf := Tape.wellFormed_start table length (wellFormed_of_ofLines definition_eq)
    (headMark_not_mem_product i (b + 1) k)
  rw [← start_product] at hreaches
  obtain ⟨e, final, report, hcontent, hhalted, hrun, -, hverdict⟩ :=
    MachineEngine.exists_settled definition_eq sharesDirections length _ (product i (b + 1) k) hwf
      hreaches hstuck (cursor_onCells_ne hx l state r)
  have haccepting : table.accepting = ["Q6"] := rfl
  refine ⟨table, e, final, report, _, definition_eq, hcontent, hhalted, hrun, hverdict, ?_, ?_, ?_⟩
  · intro h
    simp [onCells, isAccepting, haccepting, hequal h]
  · intro h
    simp [onCells, isAccepting, haccepting, hfewer h]
  · intro h
    simp [onCells, isAccepting, haccepting, hmore h]

theorem decides_product_six :
    0 < 3 ∧ ∃ d e final report v,
      Preset.timesTable.definition Preset.timesTable.accepting = .ok d ∧
      MachineEngine.ofContent ⟨d, 100, Tape.defaultEmptySymbol⟩ (product 2 3 6) false = .ok e ∧
      report.halted = true ∧
      (∀ limit, report.steps < limit →
        (e.engine.settle limit 0).watch Engine.unobserved () = ⟨final, (), .ok report⟩) ∧
      (MachineEngine.mk e.tape final).verdict report.halted = .ok v ∧
      v.state = "Q6" ∧ v.accepted = some true := by
  have hj : 0 < 3 := by decide
  obtain ⟨d, e, final, report, v, hd, he, hhalted, hrun, hverdict, hequal, -, -⟩ :=
    decides_product 2 3 6 100 hj
  exact ⟨hj, d, e, final, report, v, hd, he, hhalted, hrun, hverdict, hequal rfl⟩

/-- What the engine reports if the table gets stuck on a word character. -/
theorem exists_settled_product (i j k : ℕ) (length : Int) {l r : List Char} {state : String}
    {x : Char} (hx : isWord x = true) (hstuck : (onCells l state (x :: r)).step? table = none)
    (hreaches : Reaches table
      (round (List.replicate (length / 2).toNat '_') (List.replicate (length / 2).toNat '_')
        i j 0 k)
      (onCells l state (x :: r))) :
    ∃ e final report,
      MachineEngine.ofContent ⟨table, length, Tape.defaultEmptySymbol⟩ (product i j k) false =
        .ok e ∧
      report.halted = true ∧
      (∀ limit, report.steps < limit →
        (e.engine.settle limit 0).watch Engine.unobserved () = ⟨final, (), .ok report⟩) ∧
      (MachineEngine.mk e.tape final).verdict report.halted =
        .ok ⟨state, table.isAccepting state⟩ := by
  have hwf := Tape.wellFormed_start table length (wellFormed_of_ofLines definition_eq)
    (headMark_not_mem_product i j k)
  rw [← start_product] at hreaches
  obtain ⟨e, final, report, hcontent, hhalted, hrun, -, hverdict⟩ :=
    MachineEngine.exists_settled definition_eq sharesDirections length _ (product i j k) hwf
      hreaches hstuck (cursor_onCells_ne hx l state r)
  exact ⟨e, final, report, hcontent, hhalted, hrun, hverdict⟩

/-- Without a b the machine gets stuck and does not accept, however many letters c there are. -/
theorem rejects_without_b (i k : ℕ) (length : Int) :
    ∃ d e final report v,
      Preset.timesTable.definition Preset.timesTable.accepting = .ok d ∧
      MachineEngine.ofContent ⟨d, length, Tape.defaultEmptySymbol⟩ (product i 0 k) false = .ok e ∧
      report.halted = true ∧
      (∀ limit, report.steps < limit →
        (e.engine.settle limit 0).watch Engine.unobserved () = ⟨final, (), .ok report⟩) ∧
      (MachineEngine.mk e.tape final).verdict report.halted = .ok v ∧
      v.state = (if i = 0 then "Q0" else "Q1") ∧ v.accepted = some false := by
  let padding := List.replicate (length / 2).toNat '_'
  obtain ⟨l, x, r, hx, hstuck, hreaches⟩ := exists_stuck_without_b padding padding i k
  obtain ⟨e, final, report, hcontent, hhalted, hrun, hverdict⟩ :=
    exists_settled_product i 0 k length hx hstuck hreaches
  have haccepting : table.isAccepting (if i = 0 then "Q0" else "Q1") = some false := by
    cases i <;> rfl
  exact ⟨table, e, final, report, _, definition_eq, hcontent, hhalted, hrun, hverdict, rfl,
    haccepting⟩

/-- One a and an F are not accepted, although the product of one a and no b is the number of
letters c. -/
theorem empty_product_not_accepted :
    ¬ ∃ d e final report v,
      Preset.timesTable.definition Preset.timesTable.accepting = .ok d ∧
      MachineEngine.ofContent ⟨d, 100, Tape.defaultEmptySymbol⟩ (product 1 0 0) false = .ok e ∧
      report.halted = true ∧
      (∀ limit, report.steps < limit →
        (e.engine.settle limit 0).watch Engine.unobserved () = ⟨final, (), .ok report⟩) ∧
      (MachineEngine.mk e.tape final).verdict report.halted = .ok v ∧
      (v.accepted = some true ↔ 1 * 0 = 0) := by
  rintro ⟨d, e, final, report, v, hd, he, -, hrun, hv, haccepted⟩
  obtain ⟨l, x, r, hx, hstuck, hreaches⟩ :=
    exists_stuck_without_b (List.replicate 50 '_') (List.replicate 50 '_') 1 0
  obtain ⟨e', final', report', he', -, hrun', hv'⟩ :=
    exists_settled_product 1 0 0 100 hx hstuck hreaches
  obtain rfl := Except.ok.inj (definition_eq.symm.trans hd)
  obtain rfl := Except.ok.inj (he'.symm.trans he)
  -- beyond the steps of both reports the two runs are one
  have hlimit := (hrun (report.steps + report'.steps + 1) (by omega)).symm.trans
    (hrun' (report.steps + report'.steps + 1) (by omega))
  injection hlimit with hfinal _ hreport
  obtain rfl := Except.ok.inj hreport
  rw [hfinal, hv'] at hv
  obtain rfl := Except.ok.inj hv
  exact absurd (haccepted.mpr rfl) (by decide)

end SubstitutionAutomata.TimesTable
