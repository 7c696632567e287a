import SubstitutionAutomata.Engine.Machine
import SubstitutionAutomata.Proofs.Machine.Decode

/-! # The tape at the start

The head is on the first symbol of the content, in the initial state, and as many blank cells stand
to its left as follow the content. The buffer reads back unless the content starts with a line
feed. -/

namespace SubstitutionAutomata.Tape

open SubstitutionAutomata.Configuration

variable (d : Definition) (length : Int) {content : String}

theorem toList_padding :
    (padding ⟨d, length, defaultEmptySymbol⟩).toList =
      List.replicate (length / 2).toNat '_' := by
  rw [padding, String.toList_join, defaultEmptySymbol]
  simp [List.flatMap_def]

theorem headMark_not_mem_padding :
    headMark ∉ (padding ⟨d, length, defaultEmptySymbol⟩).toList := by
  rw [toList_padding]
  intro hmem
  cases List.eq_of_mem_replicate hmem

/-- A content without a mark is on a tape without one. -/
theorem wellFormed_start (hd : ∀ t ∈ d.transitions, t.WellFormed)
    (hcontent : headMark ∉ content.toList) :
    (start ⟨d, length, defaultEmptySymbol⟩ content d.initialState).WellFormed := by
  have hpadding := headMark_not_mem_padding d length
  have hstate := Definition.isState_of_mem hd d.initialState_mem
  rw [start]
  cases hcells : content.toList with
  | nil => exact ⟨hpadding, hpadding, hstate, '_', rfl⟩
  | cons x rest =>
      have hrest : headMark ∉ rest := fun hmem => hcontent (hcells ▸ List.mem_cons_of_mem x hmem)
      refine ⟨hpadding, ?_, hstate, x, rfl⟩
      simpa using ⟨hrest, hpadding⟩

theorem state_start (state : String) :
    (start ⟨d, length, defaultEmptySymbol⟩ content state).state = state := by
  rw [start]
  split <;> rfl

theorem cursor_start_ne (state : String) (hcontent : content.toList.head? ≠ some '\n') :
    (start ⟨d, length, defaultEmptySymbol⟩ content state).cursor ≠ "\n" := by
  rw [start]
  cases hcells : content.toList with
  | nil =>
      intro hcursor
      have hblank : defaultEmptySymbol = "\n" := hcursor
      exact absurd hblank (by decide)
  | cons x rest =>
      intro hcursor
      apply hcontent
      have hx : [x] = ['\n'] := by simpa [Char.toString] using congrArg String.toList hcursor
      rw [hcells, List.head?_cons, (List.cons.inj hx).1]

/-- An empty content takes one blank cell. -/
theorem length_tape_start (state : String) :
    (start ⟨d, length, defaultEmptySymbol⟩ content state).tape.length =
      max 1 content.length + 2 * (length / 2).toNat := by
  have hlength : content.toList.length = content.length := String.length_toList
  rw [start, ← String.length_toList]
  cases hcells : content.toList with
  | nil =>
      simp only [hcells, List.length_nil] at hlength
      simp only [tape, String.toList_append, toList_padding, List.length_append,
        List.length_replicate, ← hlength]
      have hblank : defaultEmptySymbol.toList.length = 1 := by decide
      omega
  | cons x rest =>
      simp only [hcells, List.length_cons] at hlength
      simp only [tape, String.toList_append, toList_padding, List.length_append,
        List.length_replicate, ← hlength, String.toList_ofList]
      have hhead : x.toString.toList.length = 1 := by simp [Char.toString]
      omega

end SubstitutionAutomata.Tape

namespace SubstitutionAutomata

/-- An engine starts with the head on the first symbol. -/
theorem MachineEngine.ofContent_eq_ok {d : Definition} {p : Pattern} (hp : d.pattern = .ok p)
    {length : Int} {emptySymbol content : String} :
    ofContent ⟨d, length, emptySymbol⟩ content false =
      .ok ⟨⟨d, length, emptySymbol⟩, .ofBuffer p (Tape.encodeHead ⟨d, length, emptySymbol⟩
        (Tape.start ⟨d, length, emptySymbol⟩ content d.initialState))⟩ := by
  simp [ofContent, Tape.encode, hp]

/-- Strictly, an engine starts there too or its content is refused. -/
theorem MachineEngine.ofContent_cases {d : Definition} {p : Pattern} (hp : d.pattern = .ok p)
    (length : Int) (emptySymbol content : String) (strict : Bool) :
    (∃ e, ofContent ⟨d, length, emptySymbol⟩ content strict = .error (.tape e)) ∨
      ofContent ⟨d, length, emptySymbol⟩ content strict =
          ofContent ⟨d, length, emptySymbol⟩ content false ∧
        (strict = true → Tape.validate ⟨d, length, emptySymbol⟩ content = .ok ()) := by
  cases strict with
  | false => exact .inr ⟨rfl, nofun⟩
  | true =>
      rw [ofContent_eq_ok hp]
      simp only [ofContent, if_true, Tape.encodeStrict]
      cases h : Tape.validate ⟨d, length, emptySymbol⟩ content with
      | error e => exact .inl ⟨e, rfl⟩
      | ok u => exact .inr ⟨by simp [Tape.encode, hp], fun _ => rfl⟩

end SubstitutionAutomata
