import SubstitutionAutomata.Proofs.Board.File
import SubstitutionAutomata.Proofs.Machine.HeadRecord

/-! # Symbols that no transition mentions

Any symbols may stand on a tape, marks among them. A machine leaves those that no transition
mentions at their places, and its buffer reads back, unless the content starts with a line feed or
holds the end of a head record after its first symbol. -/

namespace SubstitutionAutomata

open Text

variable {d : Definition} {t : Transition} {c c' : Configuration}

/-- A content whose tape reads back: the head does not start on a line feed, and after the first
symbol no head record ends. -/
structure Definition.Admits (d : Definition) (content : String) : Prop where
  feed : content.toList.head? ≠ some '\n'
  clear : d.Clear content.toList.tail

/-- A content of known symbols is admitted: all of them are word characters. -/
theorem Tape.admits_of_validate (hd : ∀ t ∈ d.transitions, t.WellFormed) {length : Int}
    {content : String} (h : validate ⟨d, length, defaultEmptySymbol⟩ content = .ok ()) :
    d.Admits content := by
  have hknown : ∀ x ∈ content.toList, isWord x = true := by
    intro x hx
    rw [validate] at h
    split at h
    · rename_i hunknown
      have hsymbol := (Board.unknownSymbols_eq_nil_iff _ _).mp hunknown x hx
      simp only [isKnown, Bool.or_eq_true, List.contains_iff_mem, decide_eq_true_eq] at hsymbol
      rcases hsymbol with hsymbol | hblank
      · obtain ⟨y, hy, hword⟩ := Definition.isSymbol_of_mem hd hsymbol
        have hxy : x = y := by simpa [Char.toString] using congrArg String.toList hy
        rwa [hxy]
      · have hxy : '_' = x := by
          simpa [Char.toString, defaultEmptySymbol] using congrArg String.toList hblank
        rw [← hxy]
        decide
    · cases h
  refine ⟨fun hfeed => ?_, .of_headMark_not_mem fun hmark => ?_⟩
  · have hword := hknown '\n' (List.mem_of_head? hfeed)
    exact absurd hword (by decide +kernel)
  · have hword := hknown headMark (List.mem_of_mem_tail hmark)
    exact absurd hword (by simp [not_isWord_headMark])

/-! ## One move -/

namespace Configuration

/-- A move writes a word character, so it completes no other record. -/
theorem Intact.of_move? (ht : t.WellFormed) (hc : c.Intact d) (h : c.move? t = some c') :
    c'.Intact d := by
  obtain ⟨y, rest, -, hmove⟩ := move?_cases h
  obtain ⟨s, hs, hword⟩ := ht.written
  have hwritten : t.written.toList = [s] := by simp [hs, Char.toString]
  rcases hmove with ⟨-, hcells, rfl⟩ | ⟨-, hcells, rfl⟩
  · refine ⟨?_, ?_, ht.next, y, rfl⟩
    · simpa using ⟨hc.left, ht.written.headMark_not_mem⟩
    · rw [String.toList_ofList]
      exact hc.right.mono (hcells ▸ (List.suffix_cons y rest).isInfix)
  · have hrest : headMark ∉ rest := fun hmem => hc.left (hcells ▸ List.mem_append_left [y] hmem)
    have hcolon : s ≠ ':' := by
      rintro rfl
      exact absurd hword (by decide +kernel)
    refine ⟨by simpa using hrest, ?_, ht.next, y, rfl⟩
    rw [String.toList_append, hwritten]
    exact hc.right.cons hcolon

theorem getElem?_tape_position {x : Char} (hcursor : c.cursor = x.toString) :
    c.tape.toList[c.position]? = some x := by
  simp [tape, position, hcursor, Char.toString, ← String.length_toList]

/-- A move leaves a symbol that no transition mentions at its place. -/
theorem MovesBy.getElem?_tape (hd : ∀ t ∈ d.transitions, t.WellFormed) (hc : c.Intact d)
    (h : c.MovesBy d t c') {k : ℕ} {x : Char} (hx : x.toString ∉ d.symbols)
    (hcell : c.tape.toList[k]? = some x) : c'.tape.toList[k]? = some x := by
  obtain ⟨y, hy⟩ := hc.cursor
  obtain ⟨s, hs, -⟩ := (hd t h.mem).written
  have hk : c.position ≠ k := by
    rintro rfl
    rw [getElem?_tape_position hy, Option.some.injEq] at hcell
    apply hx
    rw [← hcell, ← hy, ← h.symbol]
    exact Definition.symbol_mem h.mem
  rw [tape_of_move? hy hs h.move, List.getElem?_set_ne hk, hcell]

/-- A configuration that its buffer reads back as. Its tape keeps, from a cell on, what no
transition mentions of a content. -/
structure Keeps (d : Definition) (first : ℕ) (content : List Char) (c : Configuration) : Prop where
  intact : c.Intact d
  cursor : c.cursor ≠ "\n"
  unmentioned : ∀ (i : ℕ) (x : Char), content[i]? = some x → x.toString ∉ d.symbols →
    c.tape.toList[first + i]? = some x

variable {first : ℕ} {content : List Char}

theorem Keeps.of_movesBy (hd : ∀ t ∈ d.transitions, t.WellFormed) (hc : c.Keeps d first content)
    (h : c.MovesBy d t c') : c'.Keeps d first content where
  intact := hc.intact.of_move? (hd t h.mem) h.move
  cursor := cursor_ne_of_move? h.move
  unmentioned i x hi hx := h.getElem?_tape hd hc.intact hx (hc.unmentioned i x hi hx)

theorem Keeps.leftmost (hd : ∀ t ∈ d.transitions, t.WellFormed) (hc : c.Keeps d first content) :
    ((c.leftmostStep? d).getD c).Keeps d first content := by
  cases h : c.leftmostStep? d with
  | none => exact hc
  | some c' =>
      obtain ⟨t, -, hmoves⟩ := exists_movesBy_of_leftmostStep? h
      exact hc.of_movesBy hd hmoves

end Configuration

/-! ## The tape at the start -/

namespace Tape

open SubstitutionAutomata.Configuration

variable (length : Int) {content : String}

theorem intact_start (hd : ∀ t ∈ d.transitions, t.WellFormed)
    (hcontent : d.Clear content.toList.tail) :
    (start ⟨d, length, defaultEmptySymbol⟩ content d.initialState).Intact d := by
  have hpadding := headMark_not_mem_padding d length
  have hstate := Definition.isState_of_mem hd d.initialState_mem
  rw [start]
  cases hcells : content.toList with
  | nil => exact ⟨hpadding, .of_headMark_not_mem hpadding, hstate, '_', rfl⟩
  | cons x rest =>
      rw [hcells, List.tail_cons] at hcontent
      refine ⟨hpadding, ?_, hstate, x, rfl⟩
      rw [String.toList_append, String.toList_ofList]
      exact hcontent.append hpadding

/-- A content stands after half of the blank cells. -/
theorem getElem?_tape_start (state : String) {i : ℕ} {x : Char} (h : content.toList[i]? = some x) :
    (start ⟨d, length, defaultEmptySymbol⟩ content state).tape.toList[(length / 2).toNat + i]? =
      some x := by
  rw [start]
  cases hcells : content.toList with
  | nil => simp [hcells] at h
  | cons y rest =>
      obtain ⟨hi, -⟩ := List.getElem?_eq_some_iff.mp h
      have htape : (Configuration.mk (padding ⟨d, length, defaultEmptySymbol⟩) state y.toString
          (String.ofList rest ++ padding ⟨d, length, defaultEmptySymbol⟩)).tape.toList =
          List.replicate (length / 2).toNat '_' ++
            (content.toList ++ List.replicate (length / 2).toNat '_') := by
        simp [tape, toList_padding, hcells, Char.toString]
      rw [htape, List.getElem?_append_right (by simp), List.length_replicate,
        Nat.add_sub_cancel_left, List.getElem?_append_left hi, h]

theorem keeps_start (hd : ∀ t ∈ d.transitions, t.WellFormed) (hcontent : d.Admits content) :
    (start ⟨d, length, defaultEmptySymbol⟩ content d.initialState).Keeps d (length / 2).toNat
      content.toList where
  intact := intact_start length hd hcontent.clear
  cursor := cursor_start_ne d length _ hcontent.feed
  unmentioned _ _ h _ := getElem?_tape_start length _ h

end Tape

/-! ## Runs -/

/-- One transition, from Q0 to Q1. -/
def Definition.oneMove : Definition :=
  ⟨["Q0:a/b->R:Q1"], [⟨"Q0", "a", "b", .right, "Q1"⟩], [], List.cons_ne_nil _ _⟩

theorem Definition.ofLines_oneMove : ofLines ["Q0:a/b->R:Q1"] [] = .ok oneMove := by rfl

namespace MachineEngine

/-- An engine on an admitted content always shows one head record, makes at most one replacement in
a generation, and leaves every symbol of the content that no transition mentions at its place. -/
theorem unmentioned_symbols_stay {lines accepting : List String}
    (hlines : Definition.ofLines lines accepting = .ok d) (length : Int) (content : String)
    (hcontent : d.Admits content) :
    ∃ e, ofContent ⟨d, length, Tape.defaultEmptySymbol⟩ content false = .ok e ∧
      ∀ n, ∃ c count, (MachineEngine.mk e.tape (e.engine.after n)).head = .ok c ∧
        ((e.engine.after n).step false).2 = .ok count ∧ count ≤ 1 ∧
        ∀ (i : ℕ) (x : Char), content.toList[i]? = some x → x.toString ∉ d.symbols →
          c.tape.toList[(length / 2).toNat + i]? = some x := by
  have hd := Definition.wellFormed_of_ofLines hlines
  let tape : Tape := ⟨d, length, Tape.defaultEmptySymbol⟩
  obtain ⟨p, hp, happly⟩ := tape.exists_pattern_leftmost_of_intact hd
  let start := Engine.ofBuffer p (tape.encodeHead (tape.start content d.initialState))
  refine ⟨⟨tape, start⟩, ofContent_eq_ok hp, fun n => ?_⟩
  obtain ⟨hpattern, hbuffer, hc⟩ := Engine.after_iterate tape
    (fun c (hc : c.Keeps d (length / 2).toNat content.toList) => happly c hc.intact)
    (fun c hc => hc.leftmost hd) n start _ rfl rfl (Tape.keeps_start length hd hcontent)
  have hstep := happly.step_eq hpattern hbuffer hc.intact
  refine ⟨_, _, ?_, congrArg Prod.snd hstep, ?_, hc.unmentioned⟩
  · rw [head, hbuffer]
    exact tape.decode_encodeHead_of_intact hc.intact hc.cursor
  · split <;> omega

/-- A mark in a content and a `*` stay at their places, beside a head that moves once. -/
theorem unmentioned_symbols_stay_beside_head :
    Definition.ofLines ["Q0:a/b->R:Q1"] [] = .ok .oneMove ∧ Definition.oneMove.Admits "ab#*" ∧
      ∃ e, ofContent ⟨.oneMove, 0, Tape.defaultEmptySymbol⟩ "ab#*" false = .ok e ∧
        ∀ n, ∃ c, (MachineEngine.mk e.tape (e.engine.after n)).head = .ok c ∧
          c.tape.toList[2]? = some '#' ∧ c.tape.toList[3]? = some '*' := by
  have hcontent : Definition.oneMove.Admits "ab#*" := by
    refine ⟨by decide, fun state x _ _ htail => ?_⟩
    have hcolon : ':' ∈ "ab#*".toList.tail := htail.subset (by simp [recordTail])
    exact absurd hcolon (by decide)
  obtain ⟨e, hengine, hrun⟩ :=
    unmentioned_symbols_stay Definition.ofLines_oneMove 0 "ab#*" hcontent
  refine ⟨Definition.ofLines_oneMove, hcontent, e, hengine, fun n => ?_⟩
  obtain ⟨c, -, hhead, -, -, hstay⟩ := hrun n
  exact ⟨c, hhead, hstay 2 '#' (by decide) (by decide),
    hstay 3 '*' (by decide) (by decide)⟩

/-- On a content that starts with a line feed an engine never shows a head record. -/
theorem head_of_line_feed {lines accepting : List String}
    (hlines : Definition.ofLines lines accepting = .ok d) (length : Int) {content : String}
    (hfeed : content.toList.head? = some '\n') (hclear : d.Clear content.toList.tail) :
    ∃ e, ofContent ⟨d, length, Tape.defaultEmptySymbol⟩ content false = .ok e ∧
      ∀ n, (MachineEngine.mk e.tape (e.engine.after n)).head = .error (.headCount 0) := by
  have hd := Definition.wellFormed_of_ofLines hlines
  let tape : Tape := ⟨d, length, Tape.defaultEmptySymbol⟩
  obtain ⟨p, hp, happly⟩ := tape.exists_pattern_leftmost_of_intact hd
  have hcursor : (tape.start content d.initialState).cursor = "\n" := by
    obtain ⟨rest, hcells⟩ := List.head?_eq_some_iff.mp hfeed
    rw [Tape.start, hcells]
    rfl
  have hstays : ∀ c : Configuration, c.cursor = "\n" → (c.leftmostStep? d).getD c = c := by
    intro c hc
    cases h : c.leftmostStep? d with
    | none => rfl
    | some c' =>
        obtain ⟨t, -, hmoves⟩ := Configuration.exists_movesBy_of_leftmostStep? h
        obtain ⟨x, hx, hword⟩ := (hd t hmoves.mem).symbol
        exact absurd hc (Configuration.cursor_ne_of_isWord (hmoves.symbol ▸ hx) hword)
  let start := Engine.ofBuffer p (tape.encodeHead (tape.start content d.initialState))
  refine ⟨⟨tape, start⟩, ofContent_eq_ok hp, fun n => ?_⟩
  obtain ⟨-, hbuffer, hintact, hc⟩ := Engine.after_iterate tape
    (fun c (hc : c.Intact d ∧ c.cursor = "\n") => happly c hc.1)
    (fun c hc => by rwa [hstays c hc.2]) n start _ rfl rfl
    ⟨Tape.intact_start length hd hclear, hcursor⟩
  rw [head, hbuffer]
  exact tape.decode_encodeHead_of_line_feed hd hintact hc

/-- Neither a line feed at the front of a content nor a text that looks like a head record leaves
exactly one record to read. -/
theorem no_single_head_record :
    Definition.ofLines ["Q0:a/b->R:Q1"] [] = .ok .oneMove ∧
      ∃ e e', ofContent ⟨.oneMove, 0, Tape.defaultEmptySymbol⟩ "\nab" false = .ok e ∧
        e.engine.buffer = "#Q0Q1:ab-Q0:\n#ab" ∧ e.head = .error (.headCount 0) ∧
        ofContent ⟨.oneMove, 0, Tape.defaultEmptySymbol⟩ "ab#Q0Q1:ab-Q0:a#b" false = .ok e' ∧
        e'.engine.buffer = "#Q0Q1:ab-Q0:a#b#Q0Q1:ab-Q0:a#b" ∧
        e'.head = .error (.headCount 2) := by
  obtain ⟨p, hp, -⟩ := Definition.oneMove.exists_pattern
  let tape : Tape := ⟨.oneMove, 0, Tape.defaultEmptySymbol⟩
  have hfeed : tape.encodeHead (tape.start "\nab" "Q0") = "#Q0Q1:ab-Q0:\n#ab" := by
    decide
  have hlooks : tape.encodeHead (tape.start "ab#Q0Q1:ab-Q0:a#b" "Q0") =
      "#Q0Q1:ab-Q0:a#b#Q0Q1:ab-Q0:a#b" := by decide
  refine ⟨Definition.ofLines_oneMove, _, _, ofContent_eq_ok hp, hfeed, ?_, ofContent_eq_ok hp,
    hlooks, ?_⟩
  · exact (congrArg tape.decode hfeed).trans (by decide)
  · exact (congrArg tape.decode hlooks).trans (by decide)

end MachineEngine

end SubstitutionAutomata
