import SubstitutionAutomata.Engine.Machine
import SubstitutionAutomata.Proofs.Machine.Leftmost
import SubstitutionAutomata.Proofs.Machine.Start

/-! # One head record on a tape of fixed length

Whatever transitions a definition lists, each generation keeps the buffer as it is or rewrites its
one head record by one listed transition. -/

namespace SubstitutionAutomata

open Text

variable {d : Definition} {t : Transition} {c c' : Configuration}

/-- What a transition makes of a configuration: it moves the head to one side, onto a word
character, and of the tape it changes the cell that the head leaves. -/
structure Transition.Rewrites (t : Transition) (c c' : Configuration) : Prop where
  state : t.state = c.state
  symbol : t.symbol = c.cursor
  next : c'.state = t.next
  position : t.direction = .right ∧ c'.position = c.position + 1 ∨
    t.direction = .left ∧ c'.position + 1 = c.position
  cursor : ∃ y : Char, c'.cursor = y.toString ∧ isWord y = true
  tape : ∃ s : Char, t.written = s.toString ∧ c'.tape.toList = c.tape.toList.set c.position s

namespace Configuration

theorem MovesBy.rewrites (hd : ∀ t ∈ d.transitions, t.WellFormed)
    (hdirection : t.direction = .left ∨ t.direction = .right) (hc : c.WellFormed)
    (h : c.MovesBy d t c') : t.Rewrites c c' := by
  have ht := hd t h.mem
  obtain ⟨x, hx⟩ := hc.cursor
  obtain ⟨s, hs, -⟩ := ht.written
  refine ⟨h.state, h.symbol, state_of_move? h.move, ?_, cursor_of_move? h.move, s, hs,
    tape_of_move? hx hs h.move⟩
  rcases position_of_move? ht h.move with hright | ⟨hleft, hposition⟩
  · exact .inl hright
  · exact .inr ⟨hdirection.resolve_right hleft, hposition⟩

/-- A configuration that its buffer reads back as, in a state of the definition and on a tape of so
many cells. -/
structure OnTape (d : Definition) (cells : ℕ) (c : Configuration) : Prop where
  wellFormed : c.WellFormed
  cursor : c.cursor ≠ "\n"
  state : c.state ∈ d.states
  cells : c.tape.length = cells

theorem OnTape.of_movesBy (hd : ∀ t ∈ d.transitions, t.WellFormed) {cells : ℕ}
    (hc : c.OnTape d cells) (h : c.MovesBy d t c') : c'.OnTape d cells := by
  obtain ⟨hwf, hcursor⟩ := h.readable hd hc.wellFormed
  obtain ⟨x, hx⟩ := hc.wellFormed.cursor
  obtain ⟨s, hs, -⟩ := (hd t h.mem).written
  refine ⟨hwf, hcursor, ?_, ?_⟩
  · rw [state_of_move? h.move]
    exact Definition.next_mem h.mem
  · rw [← String.length_toList, tape_of_move? hx hs h.move, List.length_set,
      String.length_toList, hc.cells]

theorem OnTape.leftmost (hd : ∀ t ∈ d.transitions, t.WellFormed) {cells : ℕ}
    (hc : c.OnTape d cells) : ((c.leftmostStep? d).getD c).OnTape d cells := by
  cases h : c.leftmostStep? d with
  | none => exact hc
  | some c' =>
      obtain ⟨t, -, hmoves⟩ := exists_movesBy_of_leftmostStep? h
      exact hc.of_movesBy hd hmoves

theorem OnTape.next (hd : ∀ t ∈ d.transitions, t.WellFormed) {cells : ℕ}
    (hc : c.OnTape d cells) : ((c.step? d).getD c).OnTape d cells := by
  cases h : c.step? d with
  | none => exact hc
  | some c' =>
      obtain ⟨t, -, hmoves⟩ := exists_movesBy_of_step? h
      exact hc.of_movesBy hd hmoves

theorem onTape_start (hd : ∀ t ∈ d.transitions, t.WellFormed) (length : Int) {content : String}
    (hmark : headMark ∉ content.toList) (hfirst : content.toList.head? ≠ some '\n') :
    (Tape.start ⟨d, length, Tape.defaultEmptySymbol⟩ content d.initialState).OnTape d
      (max 1 content.length + 2 * (length / 2).toNat) where
  wellFormed := Tape.wellFormed_start d length hd hmark
  cursor := Tape.cursor_start_ne d length _ hfirst
  state := by
    rw [Tape.state_start]
    exact d.initialState_mem
  cells := Tape.length_tape_start d length _

end Configuration

/-- A generation either replaces nothing or rewrites the configuration that the engine shows. -/
theorem MachineEngine.generation_of_onTape {tape : Tape} {lines accepting : List String}
    (hlines : Definition.ofLines lines accepting = .ok tape.definition) {p : Pattern}
    (happly : tape.Makes p Configuration.WellFormed (Configuration.leftmostStep? tape.definition))
    {e : Engine} (hpattern : e.pattern = p) (hbuffer : e.buffer = tape.encodeHead c) {cells : ℕ}
    (hc : c.OnTape tape.definition cells) :
    (e.step false).2 = .ok 0 ∧ (e.step false).1.buffer = e.buffer ∨
      (e.step false).2 = .ok 1 ∧
        ∃ c', (MachineEngine.mk tape (e.step false).1).head = .ok c' ∧
          ∃ t ∈ tape.definition.transitions, t.Rewrites c c' := by
  have hd := Definition.wellFormed_of_ofLines hlines
  rw [happly.step_eq hpattern hbuffer hc.wellFormed]
  cases h : c.leftmostStep? tape.definition with
  | none => exact .inl ⟨rfl, hbuffer.symm⟩
  | some c' =>
      obtain ⟨t, -, hmoves⟩ := Configuration.exists_movesBy_of_leftmostStep? h
      have hc' := hc.of_movesBy hd hmoves
      have hdirection := Definition.direction_of_ofLines hlines t hmoves.mem
      exact .inr ⟨rfl, c', tape.decode_encodeHead hc'.wellFormed hc'.cursor, t, hmoves.mem,
        hmoves.rewrites hd hdirection hc.wellFormed⟩

/-- An engine on a content without a mark always shows one configuration, in a listed state and on
as many cells as at the start, and a generation replaces nothing or rewrites the configuration by a
listed transition. -/
theorem MachineEngine.generation_rewrites_head {lines accepting : List String}
    (hlines : Definition.ofLines lines accepting = .ok d) (length : Int) (content : String)
    (hmark : headMark ∉ content.toList) (hfirst : content.toList.head? ≠ some '\n') :
    ∃ p e, d.pattern = .ok p ∧
      ofContent ⟨d, length, Tape.defaultEmptySymbol⟩ content false = .ok e ∧
      ∀ n, ∃ c, (MachineEngine.mk e.tape (e.engine.after n)).head = .ok c ∧ c.state ∈ d.states ∧
        c.tape.length = max 1 content.length + 2 * (length / 2).toNat ∧
        (((e.engine.after n).step false).2 = .ok 0 ∧
            ((e.engine.after n).step false).1.buffer = (e.engine.after n).buffer ∨
          ((e.engine.after n).step false).2 = .ok 1 ∧
            ∃ c', (MachineEngine.mk e.tape ((e.engine.after n).step false).1).head = .ok c' ∧
              ∃ t ∈ d.transitions, t.Rewrites c c') := by
  have hd := Definition.wellFormed_of_ofLines hlines
  let tape : Tape := ⟨d, length, Tape.defaultEmptySymbol⟩
  obtain ⟨p, hp, happly⟩ := tape.exists_pattern_leftmost hd
  have hstart := Configuration.onTape_start hd length hmark hfirst
  let start := Engine.ofBuffer p (tape.encodeHead (tape.start content d.initialState))
  refine ⟨p, ⟨tape, start⟩, hp, ofContent_eq_ok hp, fun n => ?_⟩
  obtain ⟨hpattern, hbuffer, hc⟩ := Engine.after_iterate tape
    (fun c hc => happly c hc.wellFormed) (fun c hc => hc.leftmost hd) n start _ rfl rfl hstart
  refine ⟨_, ?_, hc.state, hc.cells, generation_of_onTape hlines happly hpattern hbuffer hc⟩
  rw [head, hbuffer]
  exact tape.decode_encodeHead hc.wellFormed hc.cursor

/-- With transitions to both sides the head keeps to the three cells of its tape. -/
theorem MachineEngine.generation_rewrites_head_bothWays :
    Definition.ofLines ["Q0:a/b->R:Q1", "Q0:a/c->L:Q2"] [] = .ok Definition.bothWays ∧
      headMark ∉ "a".toList ∧ "a".toList.head? ≠ some '\n' ∧
      ∃ e, ofContent ⟨Definition.bothWays, 2, Tape.defaultEmptySymbol⟩ "a" false = .ok e ∧
        ∀ n, ∃ c, (MachineEngine.mk e.tape (e.engine.after n)).head = .ok c ∧
          c.state ∈ Definition.bothWays.states ∧ c.tape.length = 3 := by
  have hmark : headMark ∉ "a".toList := by decide
  have hfirst : "a".toList.head? ≠ some '\n' := by decide
  obtain ⟨p, e, -, hcontent, hrun⟩ :=
    generation_rewrites_head Definition.ofLines_bothWays 2 "a" hmark hfirst
  refine ⟨Definition.ofLines_bothWays, hmark, hfirst, e, hcontent, fun n => ?_⟩
  obtain ⟨c, hhead, hstate, hcells, -⟩ := hrun n
  exact ⟨c, hhead, hstate, hcells⟩

end SubstitutionAutomata
