import SubstitutionAutomata.Machine.Preset
import SubstitutionAutomata.Proofs.Machine.Scan

/-! # Copying a string of bits

Every round marks one bit, carries it past C and the bits copied so far, writes it on the first
blank cell, and returns to the mark. The machine copies the whole string if the blank cells on the
right suffice, and stops at the end of the tape if they do not. -/

namespace SubstitutionAutomata.Duplicate

open SubstitutionAutomata.Configuration Definition Text

/-! ## The table -/

/-- The definition that declares the accepting state of the preset. -/
def table : Definition :=
  ⟨Preset.duplicate.transitions, [
    ⟨"Q0", "B", "B", .right, "Q1"⟩,
    ⟨"Q1", "0", "0", .right, "Q1"⟩, ⟨"Q1", "1", "1", .right, "Q1"⟩, ⟨"Q1", "B", "C", .left, "Q2"⟩,
    ⟨"Q2", "0", "0", .left, "Q2"⟩, ⟨"Q2", "1", "1", .left, "Q2"⟩, ⟨"Q2", "C", "C", .left, "Q2"⟩,
    ⟨"Q2", "B", "B", .right, "Q3"⟩, ⟨"Q2", "X", "X", .right, "Q3"⟩,
    ⟨"Q2", "Y", "Y", .right, "Q3"⟩,
    ⟨"Q3", "0", "X", .right, "Q10"⟩, ⟨"Q3", "1", "Y", .right, "Q20"⟩,
    ⟨"Q3", "C", "B", .left, "Q30"⟩,
    ⟨"Q10", "0", "0", .right, "Q10"⟩, ⟨"Q10", "1", "1", .right, "Q10"⟩,
    ⟨"Q10", "C", "C", .right, "Q10"⟩, ⟨"Q10", "_", "0", .left, "Q2"⟩,
    ⟨"Q20", "0", "0", .right, "Q20"⟩, ⟨"Q20", "1", "1", .right, "Q20"⟩,
    ⟨"Q20", "C", "C", .right, "Q20"⟩, ⟨"Q20", "_", "1", .left, "Q2"⟩,
    ⟨"Q30", "X", "0", .left, "Q30"⟩, ⟨"Q30", "Y", "1", .left, "Q30"⟩,
    ⟨"Q30", "B", "B", .left, "Q99"⟩],
    Preset.duplicate.accepting, List.cons_ne_nil _ _⟩

theorem definition_eq :
    Preset.duplicate.definition Preset.duplicate.accepting = .ok table := by
  decide

theorem sharesDirections : table.SharesDirections := by
  unfold SharesDirections
  decide

/-- The character of a bit. -/
def bit (b : Bool) : Char := if b then '1' else '0'

/-- The mark on a copied bit. -/
def mark (b : Bool) : Char := if b then 'Y' else 'X'

/-- The state that carries a bit to the right. -/
def carrying (b : Bool) : String := if b then "Q20" else "Q10"

/-- What the head passes between the mark and the blank cells. -/
def Passed (x : Char) : Prop := x = 'C' ∨ ∃ b, x = bit b

theorem entry_start : table.Entry "Q0" 'B' 'B' .right "Q1" := by rfl

theorem entry_seek (b : Bool) : table.Entry "Q1" (bit b) (bit b) .right "Q1" := by
  cases b <;> rfl

theorem entry_divide : table.Entry "Q1" 'B' 'C' .left "Q2" := by rfl

theorem entry_rewind {x : Char} (h : Passed x) : table.Entry "Q2" x x .left "Q2" := by
  rcases h with rfl | ⟨b, rfl⟩
  · rfl
  · cases b <;> rfl

theorem entry_turn : table.Entry "Q2" 'B' 'B' .right "Q3" := by rfl

theorem entry_turn_mark (b : Bool) : table.Entry "Q2" (mark b) (mark b) .right "Q3" := by
  cases b <;> rfl

theorem entry_mark (b : Bool) : table.Entry "Q3" (bit b) (mark b) .right (carrying b) := by
  cases b <;> rfl

theorem entry_carry (b : Bool) {x : Char} (h : Passed x) :
    table.Entry (carrying b) x x .right (carrying b) := by
  rcases h with rfl | ⟨a, rfl⟩
  · cases b <;> rfl
  · cases a <;> cases b <;> rfl

theorem entry_write (b : Bool) : table.Entry (carrying b) '_' (bit b) .left "Q2" := by
  cases b <;> rfl

theorem entry_copied : table.Entry "Q3" 'C' 'B' .left "Q30" := by rfl

theorem entry_restore (b : Bool) : table.Entry "Q30" (mark b) (bit b) .left "Q30" := by
  cases b <;> rfl

theorem entry_park : table.Entry "Q30" 'B' 'B' .left "Q99" := by rfl

theorem isWord_bit (b : Bool) : isWord (bit b) = true :=
  isWord_of_isAlphanum _ (by cases b <;> rfl)

theorem isWord_mark (b : Bool) : isWord (mark b) = true :=
  isWord_of_isAlphanum _ (by cases b <;> rfl)

theorem isWord_frame : isWord 'B' = true := isWord_of_isAlphanum 'B' rfl

theorem Passed.isWord {x : Char} (h : Passed x) : Text.isWord x = true := by
  rcases h with rfl | ⟨b, rfl⟩
  · exact isWord_of_isAlphanum 'C' rfl
  · exact isWord_bit b

/-! ## Scans -/

section Scans

variable {xs l r : List Char} {x s y : Char}

theorem reaches_carry (b : Bool) (hxs : ∀ x ∈ xs, Passed x) (hy : isWord y = true) :
    Reaches table (onCells l (carrying b) (xs ++ y :: r))
      (onCells (xs.reverse ++ l) (carrying b) (y :: r)) :=
  reaches_right xs (fun x hx => entry_carry b (hxs x hx)) (fun x hx => (hxs x hx).isWord) hy

/-- The head writes a cell and returns over all that it passed before. -/
theorem reaches_rewind {state : String} (h : table.Entry state x s .left "Q2")
    (hxs : ∀ x ∈ xs, Passed x) (hy : isWord y = true) :
    Reaches table (onCells (xs.reverse ++ y :: l) state (x :: r))
      (onCells l "Q2" (y :: (xs ++ s :: r))) := by
  simpa using reaches_turn_left id id xs h (fun x hx => entry_rewind (hxs x hx))
    (fun x hx => (hxs x hx).isWord) hy

end Scans

/-! ## Rounds -/

def bits (w : List Bool) : List Char := w.map bit

def blanks (n : ℕ) : List Char := List.replicate n '_'

/-- What the head passes on its way from a mark to the blank cells. -/
def between (copied rest : List Bool) : List Char := bits rest ++ 'C' :: bits copied

theorem passed_of_mem_bits {w : List Bool} {x : Char} (h : x ∈ bits w) : Passed x := by
  obtain ⟨b, -, rfl⟩ := List.mem_map.mp h
  exact .inr ⟨b, rfl⟩

theorem passed_of_mem_between {copied rest : List Bool} {x : Char} (h : x ∈ between copied rest) :
    Passed x := by
  rw [between, List.mem_append, List.mem_cons] at h
  rcases h with hrest | rfl | hcopied
  · exact passed_of_mem_bits hrest
  · exact .inl rfl
  · exact passed_of_mem_bits hcopied

theorem open_bits (w : List Bool) {y : Char} (hy : isWord y = true) (r : List Char) :
    Open (bits w ++ y :: r) :=
  open_append (fun _ hx => (passed_of_mem_bits hx).isWord) hy

/-- The first bits are copied, and the head is on the next one; the copy is followed by so many
blank cells. -/
def round (k : ℕ) (copied rest : List Bool) (n : ℕ) : Configuration :=
  onCells ((copied.map mark).reverse ++ 'B' :: blanks k) "Q3"
    (bits rest ++ 'C' :: (bits copied ++ blanks n))

/-- The head marks a bit and leaves it. -/
theorem reaches_mark (k : ℕ) (copied : List Bool) (b : Bool) (rest : List Bool) (n : ℕ) :
    Reaches table (round k copied (b :: rest) n)
      (onCells (mark b :: ((copied.map mark).reverse ++ 'B' :: blanks k)) (carrying b)
        (between copied rest ++ blanks n)) := by
  have hopen : Open (between copied rest ++ blanks n) := by
    rw [between, List.append_assoc, List.cons_append]
    exact open_bits rest (Passed.isWord (.inl rfl)) _
  have hcells : round k copied (b :: rest) n =
      onCells ((copied.map mark).reverse ++ 'B' :: blanks k) "Q3"
        (bit b :: (between copied rest ++ blanks n)) := by
    simp [round, between, bits]
  rw [hcells]
  exact reaches_step_right (entry_mark b) hopen

/-- One round copies one bit to the first blank cell. -/
theorem reaches_round (k : ℕ) (copied : List Bool) (b : Bool) (rest : List Bool) (n : ℕ) :
    Reaches table (round k copied (b :: rest) (n + 1)) (round k (copied ++ [b]) rest n) := by
  let l := (copied.map mark).reverse ++ 'B' :: blanks k
  let xs := between copied rest
  have hpassed : ∀ x ∈ xs, Passed x := fun _ hx => passed_of_mem_between hx
  have hmark : Reaches table (round k copied (b :: rest) (n + 1))
      (onCells (mark b :: l) (carrying b) (xs ++ '_' :: blanks n)) :=
    reaches_mark k copied b rest (n + 1)
  have hcarry : Reaches table (onCells (mark b :: l) (carrying b) (xs ++ '_' :: blanks n))
      (onCells (xs.reverse ++ mark b :: l) (carrying b) ('_' :: blanks n)) :=
    reaches_carry b hpassed isWord_underscore
  have hrewind : Reaches table (onCells (xs.reverse ++ mark b :: l) (carrying b) ('_' :: blanks n))
      (onCells l "Q2" (mark b :: (xs ++ bit b :: blanks n))) :=
    reaches_rewind (entry_write b) hpassed (isWord_mark b)
  have hturn : Reaches table (onCells l "Q2" (mark b :: (xs ++ bit b :: blanks n)))
      (round k (copied ++ [b]) rest n) := by
    have hcells : round k (copied ++ [b]) rest n =
        onCells (mark b :: l) "Q3" (xs ++ bit b :: blanks n) := by
      simp [round, between, bits, l, xs]
    rw [hcells]
    exact reaches_step_right (entry_turn_mark b)
      (open_append (fun x hx => (hpassed x hx).isWord) (isWord_bit b))
  exact hmark.trans (hcarry.trans (hrewind.trans hturn))

/-- With a blank cell for every bit, the rounds copy all of them. -/
theorem reaches_round_nil (k : ℕ) (copied rest : List Bool) (n : ℕ) :
    Reaches table (round k copied rest (rest.length + n)) (round k (copied ++ rest) [] n) := by
  induction rest generalizing copied with
  | nil =>
      rw [List.append_nil, List.length_nil, Nat.zero_add]
      exact .refl
  | cons b rest ih =>
      have hround := reaches_round k copied b rest (rest.length + n)
      have hrest := ih (copied ++ [b])
      rw [List.append_assoc, List.singleton_append] at hrest
      rw [List.length_cons, Nat.add_right_comm]
      exact hround.trans hrest

/-- With fewer blank cells, the machine carries a bit to the end of the tape. -/
theorem reaches_carrying_end (k : ℕ) (copied rest : List Bool) (n : ℕ) (h : n < rest.length) :
    ∃ b l x, Passed x ∧ Reaches table (round k copied rest n) (onCells l (carrying b) [x]) := by
  induction rest generalizing copied n with
  | nil => simp at h
  | cons b rest ih =>
      cases n with
      | zero =>
          have hne : between copied rest ≠ [] := by simp [between]
          obtain ⟨xs, x, hxs⟩ := (List.eq_nil_or_concat' _).resolve_left hne
          have hcells : between copied rest ++ blanks 0 = xs ++ [x] := by simp [blanks, hxs]
          have hx : Passed x := passed_of_mem_between (hxs ▸ List.mem_concat_self)
          have hpassed : ∀ z ∈ xs, Passed z := fun z hz =>
            passed_of_mem_between (hxs ▸ List.mem_append_left _ hz)
          let l := mark b :: ((copied.map mark).reverse ++ 'B' :: blanks k)
          have hmark : Reaches table (round k copied (b :: rest) 0)
              (onCells l (carrying b) (xs ++ [x])) :=
            hcells ▸ reaches_mark k copied b rest 0
          have hcarry : Reaches table (onCells l (carrying b) (xs ++ [x]))
              (onCells (xs.reverse ++ l) (carrying b) [x]) :=
            reaches_carry b hpassed hx.isWord
          exact ⟨b, xs.reverse ++ l, x, hx, hmark.trans hcarry⟩
      | succ n =>
          obtain ⟨a, l, x, hx, hrest⟩ := ih (copied ++ [b]) n (by simpa using h)
          exact ⟨a, l, x, hx, (reaches_round k copied b rest n).trans hrest⟩

/-- The head finds the second B, makes it a C and returns to the first bit. -/
theorem reaches_first_round (k : ℕ) (w : List Bool) (n : ℕ) :
    Reaches table (onCells (blanks k) "Q0" ('B' :: (bits w ++ 'B' :: blanks n)))
      (round k [] w n) := by
  have hstart : Reaches table (onCells (blanks k) "Q0" ('B' :: (bits w ++ 'B' :: blanks n)))
      (onCells ('B' :: blanks k) "Q1" (bits w ++ 'B' :: blanks n)) :=
    reaches_step_right entry_start (open_bits w isWord_frame _)
  have hseek : Reaches table (onCells ('B' :: blanks k) "Q1" (bits w ++ 'B' :: blanks n))
      (onCells ((bits w).reverse ++ 'B' :: blanks k) "Q1" ('B' :: blanks n)) := by
    refine reaches_right (bits w) ?_ (fun _ hx => (passed_of_mem_bits hx).isWord) isWord_frame
    intro x hx
    obtain ⟨b, -, rfl⟩ := List.mem_map.mp hx
    exact entry_seek b
  have hrewind : Reaches table
      (onCells ((bits w).reverse ++ 'B' :: blanks k) "Q1" ('B' :: blanks n))
      (onCells (blanks k) "Q2" ('B' :: (bits w ++ 'C' :: blanks n))) :=
    reaches_rewind entry_divide (fun _ hx => passed_of_mem_bits hx) isWord_frame
  have hturn : Reaches table (onCells (blanks k) "Q2" ('B' :: (bits w ++ 'C' :: blanks n)))
      (round k [] w n) :=
    reaches_step_right entry_turn (open_bits w (Passed.isWord (.inl rfl)) _)
  exact hstart.trans (hseek.trans (hrewind.trans hturn))

/-- With all bits copied, the head makes C a B again and turns the marks back into bits. -/
theorem reaches_restored (k : ℕ) (w : List Bool) (n : ℕ) :
    Reaches table (round k w [] n)
      (onCells (blanks k) "Q30" ('B' :: (bits w ++ 'B' :: (bits w ++ blanks n)))) :=
  reaches_turn_left mark bit w entry_copied (fun b _ => entry_restore b) (fun b _ => isWord_mark b)
    isWord_frame

/-! ## Where the machine halts -/

theorem step?_carrying_end {b : Bool} {l : List Char} {x : Char} (h : Passed x) :
    (onCells l (carrying b) [x]).step? table = none := by
  rw [step?_right (entry_carry b h), if_neg (by decide)]

theorem step?_parked (l r : List Char) : (onCells l "Q99" ('_' :: r)).step? table = none := by
  rfl

/-- With a blank cell for every bit, and one on the left, the head ends left of the two copies. -/
theorem reaches_parked (k : ℕ) (w : List Bool) (n : ℕ) :
    Reaches table
      (onCells (blanks (k + 1)) "Q0" ('B' :: (bits w ++ 'B' :: blanks (w.length + n))))
      (onCells (blanks k) "Q99" ('_' :: 'B' :: (bits w ++ 'B' :: (bits w ++ blanks n)))) := by
  have hstart := reaches_first_round (k + 1) w (w.length + n)
  have hrounds := reaches_round_nil (k + 1) [] w n
  have hrestored := reaches_restored (k + 1) w n
  have hpark : Reaches table
      (onCells (blanks (k + 1)) "Q30" ('B' :: (bits w ++ 'B' :: (bits w ++ blanks n))))
      (onCells (blanks k) "Q99" ('_' :: 'B' :: (bits w ++ 'B' :: (bits w ++ blanks n)))) :=
    reaches_step_left entry_park isWord_underscore
  exact hstart.trans (hrounds.trans (hrestored.trans hpark))

/-- Otherwise it ends in a state that is not accepting. -/
theorem reaches_stuck (k : ℕ) (w : List Bool) (h : k < max 1 w.length) :
    ∃ l state x r, state ≠ "Q99" ∧ isWord x = true ∧
      (onCells l state (x :: r)).step? table = none ∧
      Reaches table (onCells (blanks k) "Q0" ('B' :: (bits w ++ 'B' :: blanks k)))
        (onCells l state (x :: r)) := by
  have hstart := reaches_first_round k w k
  by_cases hlength : k < w.length
  · obtain ⟨b, l, x, hx, hrounds⟩ := reaches_carrying_end k [] w k hlength
    have hstate : carrying b ≠ "Q99" := by cases b <;> decide
    exact ⟨l, carrying b, x, [], hstate, hx.isWord, step?_carrying_end hx, hstart.trans hrounds⟩
  · obtain rfl : k = 0 := by omega
    obtain rfl : w = [] := List.eq_nil_of_length_eq_zero (by omega)
    have hstuck : (onCells [] "Q30" ('B' :: ['B'])).step? table = none := by
      rw [step?_left entry_park, if_neg (by decide)]
    exact ⟨[], "Q30", 'B', ['B'], by decide, isWord_frame, hstuck,
      hstart.trans (reaches_restored 0 [] 0)⟩

/-! ## The engine -/

/-- A string of bits between two B. -/
def framed (w : List Bool) : String := String.ofList ('B' :: (bits w ++ ['B']))

theorem start_framed (w : List Bool) (length : Int) :
    Tape.start ⟨table, length, Tape.defaultEmptySymbol⟩ (framed w) table.initialState =
      onCells (blanks (length / 2).toNat) "Q0"
        ('B' :: (bits w ++ 'B' :: blanks (length / 2).toNat)) := by
  have hstate : table.initialState = "Q0" := by rfl
  rw [framed, start_eq_onCells table length _ (List.cons_ne_nil _ _), hstate]
  simp [blanks]

theorem headMark_not_mem_framed (w : List Bool) : headMark ∉ (framed w).toList := by
  have hbits : headMark ∉ bits w := by
    intro hmem
    have hword := (passed_of_mem_bits hmem).isWord
    rw [not_isWord_headMark] at hword
    cases hword
  have hframe : headMark ≠ 'B' := by decide
  simp [framed, hbits, hframe]

/-- The machine copies a string of bits if there is a blank cell for every bit, and at least one;
otherwise it halts without accepting. -/
theorem copies_framed (w : List Bool) (length : Int) :
    ∃ d e final report v c,
      Preset.duplicate.definition Preset.duplicate.accepting = .ok d ∧
      MachineEngine.ofContent ⟨d, length, Tape.defaultEmptySymbol⟩ (framed w) false = .ok e ∧
      report.halted = true ∧
      (∀ limit, report.steps < limit →
        (e.engine.settle limit 0).watch Engine.unobserved () = ⟨final, (), .ok report⟩) ∧
      (MachineEngine.mk e.tape final).head = .ok c ∧
      (MachineEngine.mk e.tape final).verdict report.halted = .ok v ∧
      (max 1 w.length ≤ (length / 2).toNat →
        v.state = "Q99" ∧ v.accepted = some true ∧
        c.tape = String.ofList (blanks (length / 2).toNat ++
          'B' :: (bits w ++ 'B' :: (bits w ++ blanks ((length / 2).toNat - w.length)))) ∧
        c.position = (length / 2).toNat - 1) ∧
      ((length / 2).toNat < max 1 w.length → v.accepted = some false) := by
  have hstart := start_framed w length
  have hwf := Tape.wellFormed_start table length (wellFormed_of_ofLines definition_eq)
    (headMark_not_mem_framed w)
  generalize (length / 2).toNat = k at hstart ⊢
  by_cases h : max 1 w.length ≤ k
  · obtain ⟨k, rfl⟩ := Nat.exists_eq_succ_of_ne_zero (show k ≠ 0 by omega)
    obtain ⟨n, hn⟩ := Nat.exists_eq_add_of_le (show w.length ≤ k + 1 by omega)
    have hreaches := reaches_parked k w n
    rw [← hn, ← hstart] at hreaches
    obtain ⟨e, final, report, hcontent, hhalted, hrun, hhead, hverdict⟩ :=
      MachineEngine.exists_settled definition_eq sharesDirections length _ (framed w) hwf hreaches
        (step?_parked _ _) (cursor_onCells_ne isWord_underscore _ _ _)
    have hblanks : blanks (k + 1) = blanks k ++ ['_'] := List.replicate_succ'
    refine ⟨table, e, final, report, _, _, definition_eq, hcontent, hhalted, hrun, hhead, hverdict,
      ?_, by omega⟩
    intro _
    refine ⟨rfl, rfl, ?_, ?_⟩
    · have hrest : k + 1 - w.length = n := by omega
      rw [tape_onCells, Nat.succ_eq_add_one, hrest, hblanks]
      simp [blanks]
    · rw [position_onCells]
      simp [blanks]
  · obtain ⟨l, state, x, r, hstate, hx, hstuck, hreaches⟩ := reaches_stuck k w (by omega)
    rw [← hstart] at hreaches
    obtain ⟨e, final, report, hcontent, hhalted, hrun, hhead, hverdict⟩ :=
      MachineEngine.exists_settled definition_eq sharesDirections length _ (framed w) hwf hreaches
        hstuck (cursor_onCells_ne hx l state r)
    refine ⟨table, e, final, report, _, _, definition_eq, hcontent, hhalted, hrun, hhead, hverdict,
      by omega, ?_⟩
    intro _
    have haccepting : table.accepting = ["Q99"] := rfl
    simp [isAccepting, onCells, haccepting, hstate]

end SubstitutionAutomata.Duplicate
