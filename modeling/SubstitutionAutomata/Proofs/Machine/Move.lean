import SubstitutionAutomata.Proofs.Machine.Record

/-! # Moves of the head

A transition moves the head onto a word character next to it. The move changes one cell of the tape,
and in the buffer it puts one text in the place of the text that the transition's clause takes. -/

namespace SubstitutionAutomata

open Regex Text

variable {d : Definition} {t : Transition} {c c' : Configuration}

/-- What the clause of a transition is replaced by. -/
def Transition.image (t : Transition) (d : Definition) (y : Char) : List Char :=
  if t.direction = .right then t.written.toList ++ recordText d t.next.toList [y]
  else recordText d t.next.toList [y] ++ t.written.toList

theorem Definition.transition?_spec {state symbol : String}
    (h : d.transition? state symbol = some t) :
    t ∈ d.transitions ∧ t.state = state ∧ t.symbol = symbol := by
  have hfound := List.find?_some h
  simp only [Bool.and_eq_true, decide_eq_true_eq] at hfound
  exact ⟨List.mem_of_find?_eq_some h, hfound⟩

/-- Transitions to one side move the head to one cell. -/
theorem Transition.target?_congr {t t' : Transition}
    (h : t.direction = .right ↔ t'.direction = .right) (c : Configuration) :
    t.target? c = t'.target? c := by
  simp only [target?, h]

namespace Configuration

/-- The move of a transition, whatever state and symbol the transition is for. -/
def move? (c : Configuration) (t : Transition) : Option Configuration :=
  if t.direction = .right then c.moveRight? t else c.moveLeft? t

/-- A listed transition for the state and for the symbol under the head makes its move. -/
structure MovesBy (d : Definition) (c : Configuration) (t : Transition) (c' : Configuration) :
    Prop where
  mem : t ∈ d.transitions
  state : t.state = c.state
  symbol : t.symbol = c.cursor
  move : c.move? t = some c'

/-- The table makes the move of the transition that it has. -/
theorem step?_eq_bind (d : Definition) (c : Configuration) :
    c.step? d = (d.transition? c.state c.cursor).bind c.move? := by
  rw [step?]
  cases d.transition? c.state c.cursor <;> rfl

theorem exists_movesBy_of_step? (h : c.step? d = some c') :
    ∃ t, d.transition? c.state c.cursor = some t ∧ c.MovesBy d t c' := by
  rw [step?_eq_bind] at h
  obtain ⟨t, ht, hmove⟩ := Option.bind_eq_some_iff.mp h
  obtain ⟨hmem, hstate, hsymbol⟩ := Definition.transition?_spec ht
  exact ⟨t, ht, hmem, hstate, hsymbol, hmove⟩

/-- A move writes a symbol and takes the next cell on one side from under the head. -/
theorem move?_cases (h : c.move? t = some c') :
    ∃ y rest, isWord y = true ∧
      (t.direction = .right ∧ c.right.toList = y :: rest ∧
          c' = ⟨c.left ++ t.written, t.next, y.toString, String.ofList rest⟩ ∨
        t.direction ≠ .right ∧ c.left.toList = rest ++ [y] ∧
          c' = ⟨String.ofList rest, t.next, y.toString, t.written ++ c.right⟩) := by
  unfold move? at h
  by_cases hright : t.direction = .right
  · rw [if_pos hright, moveRight?] at h
    cases hcells : c.right.toList with
    | nil => simp [hcells] at h
    | cons y rest =>
        simp only [hcells] at h
        split at h
        · rename_i hword
          exact ⟨y, rest, hword, .inl ⟨hright, rfl, (Option.some.inj h).symm⟩⟩
        · cases h
  · rw [if_neg hright, moveLeft?] at h
    cases hcells : c.left.toList.getLast? with
    | none => simp [hcells] at h
    | some y =>
        simp only [hcells] at h
        split at h
        · rename_i hword
          have hsplit := (List.dropLast_append_getLast? y hcells).symm
          exact ⟨y, _, hword, .inr ⟨hright, hsplit, (Option.some.inj h).symm⟩⟩
        · cases h

/-- A transition has a move exactly if there is a word character to move to. -/
theorem isSome_move?_iff (c : Configuration) (t : Transition) :
    (c.move? t).isSome = true ↔ ∃ q y, t.target? c = some (q, y) ∧ isWord y = true := by
  rw [move?, Transition.target?]
  by_cases hright : t.direction = .right
  · simp only [hright, if_true, moveRight?]
    cases c.right.toList with
    | nil => simp
    | cons y rest => by_cases hword : isWord y = true <;> simp [hword]
  · simp only [hright, if_false, moveLeft?]
    cases c.left.toList.getLast? with
    | none => simp
    | some y => by_cases hword : isWord y = true <;> simp [hword]

/-- A move replaces the text of the transition's clause by its image. -/
theorem text_of_movesBy (h : c.MovesBy d t c') :
    ∃ y before rest, isWord y = true ∧ c.text d = before ++ (t.matchText d y ++ rest) ∧
      c'.text d = before ++ (t.image d y ++ rest) := by
  obtain ⟨y, rest, hword, hmove⟩ := move?_cases h.move
  rcases hmove with ⟨hright, hcells, rfl⟩ | ⟨hright, hcells, rfl⟩
  · refine ⟨y, c.left.toList, rest, hword, ?_, ?_⟩
    · simp [text, Transition.matchText, hright, h.state, h.symbol, hcells]
    · simp [text, Transition.image, hright, Char.toString]
  · refine ⟨y, rest, c.right.toList, hword, ?_, ?_⟩
    · simp [text, Transition.matchText, hright, h.state, h.symbol, hcells]
    · simp [text, Transition.image, hright, Char.toString]

theorem WellFormed.of_move? (ht : t.WellFormed) (hc : c.WellFormed) (h : c.move? t = some c') :
    c'.WellFormed := by
  obtain ⟨y, rest, -, hmove⟩ := move?_cases h
  have hwritten := ht.written.headMark_not_mem
  rcases hmove with ⟨-, hcells, rfl⟩ | ⟨-, hcells, rfl⟩
  · have hrest : headMark ∉ rest := fun hmem => hc.right (hcells ▸ List.mem_cons_of_mem y hmem)
    refine ⟨?_, by simpa using hrest, ht.next, y, rfl⟩
    simpa using ⟨hc.left, hwritten⟩
  · have hrest : headMark ∉ rest := fun hmem => hc.left (hcells ▸ List.mem_append_left [y] hmem)
    refine ⟨by simpa using hrest, ?_, ht.next, y, rfl⟩
    simpa using ⟨hwritten, hc.right⟩

theorem WellFormed.step? (hd : ∀ t ∈ d.transitions, t.WellFormed) (hc : c.WellFormed)
    (h : c.step? d = some c') : c'.WellFormed := by
  obtain ⟨t, -, hmove⟩ := exists_movesBy_of_step? h
  exact hc.of_move? (hd t hmove.mem) hmove.move

/-- A move takes the head onto a word character. -/
theorem cursor_of_move? (h : c.move? t = some c') :
    ∃ y : Char, c'.cursor = y.toString ∧ isWord y = true := by
  obtain ⟨y, rest, hword, ⟨-, -, rfl⟩ | ⟨-, -, rfl⟩⟩ := move?_cases h
  · exact ⟨y, rfl, hword⟩
  · exact ⟨y, rfl, hword⟩

theorem cursor_ne_of_isWord {y : Char} (hcursor : c.cursor = y.toString) (hy : isWord y = true) :
    c.cursor ≠ "\n" := by
  intro hfeed
  have hword : isWord '\n' = false := by decide +kernel
  have hchar : y = '\n' := by
    simpa [Char.toString] using congrArg String.toList (hcursor.symm.trans hfeed)
  rw [hchar, hword] at hy
  cases hy

/-- A move never takes the head onto a line feed. -/
theorem cursor_ne_of_move? (h : c.move? t = some c') : c'.cursor ≠ "\n" := by
  obtain ⟨y, hcursor, hword⟩ := cursor_of_move? h
  exact cursor_ne_of_isWord hcursor hword

theorem state_of_move? (h : c.move? t = some c') : c'.state = t.next := by
  obtain ⟨y, rest, -, ⟨-, -, rfl⟩ | ⟨-, -, rfl⟩⟩ := move?_cases h <;> rfl

/-- The head moves by one cell. -/
theorem position_of_move? (ht : t.WellFormed) (h : c.move? t = some c') :
    t.direction = .right ∧ c'.position = c.position + 1 ∨
      t.direction ≠ .right ∧ c'.position + 1 = c.position := by
  obtain ⟨s, hs, -⟩ := ht.written
  obtain ⟨y, rest, -, ⟨hright, -, rfl⟩ | ⟨hright, hcells, rfl⟩⟩ := move?_cases h
  · exact .inl ⟨hright, by simp [position, hs]⟩
  · refine .inr ⟨hright, ?_⟩
    simp only [position, ← String.length_toList, String.toList_ofList, hcells]
    simp

/-- Of the plain tape a move changes the cell that the head leaves. -/
theorem tape_of_move? {x s : Char} (hcursor : c.cursor = x.toString)
    (hwritten : t.written = s.toString) (h : c.move? t = some c') :
    c'.tape.toList = c.tape.toList.set c.position s := by
  have htape : c.tape.toList.set c.position s = c.left.toList ++ s :: c.right.toList := by
    have hcells : c.tape.toList = c.left.toList ++ x :: c.right.toList := by
      simp [tape, hcursor, Char.toString]
    rw [hcells, position, ← String.length_toList, List.set_append_right _ _ (Nat.le_refl _),
      Nat.sub_self, List.set_cons_zero]
  obtain ⟨y, rest, -, ⟨-, hcells, rfl⟩ | ⟨-, hcells, rfl⟩⟩ := move?_cases h
  · rw [htape, hcells]
    simp [tape, hwritten, Char.toString]
  · rw [htape, hcells]
    simp [tape, hwritten, Char.toString]

end Configuration

end SubstitutionAutomata
