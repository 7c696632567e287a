import SubstitutionAutomata.Proofs.Machine.Captures
import SubstitutionAutomata.Proofs.Machine.Definition
import SubstitutionAutomata.Proofs.Regex.Piece

/-! # Where the clause of a transition matches

The clause of a transition matches the head record in the transition's state and on its symbol,
together with a word character on the side that the head moves to. It captures the next state and
the written symbol from the listing of the record, and that character. -/

namespace SubstitutionAutomata

open Regex Text

/-! ## Listings -/

/-- The values of a listing, the wanted one inside a capture. -/
def listingPieces (values : List String) (wanted name : String) : List Piece :=
  values.map fun v => ⟨v.toList, if v = wanted then some name else none⟩

section Listing

variable (values : List String) (wanted name : String)

theorem listingItems_eq :
    listingItems values wanted name = (listingPieces values wanted name).flatMap Piece.items := by
  rw [listingItems, listingPieces, List.flatMap_map]
  apply List.flatMap_congr
  intro v _
  by_cases h : v = wanted <;> simp [Piece.items, h]

theorem text_listingPieces :
    (listingPieces values wanted name).flatMap Piece.text = values.flatMap String.toList := by
  rw [listingPieces, List.flatMap_map]

variable {values wanted name}

theorem name_listingPieces {piece : Piece} (h : piece ∈ listingPieces values wanted name)
    {other : String} (hname : piece.name? = some other) :
    other = name ∧ piece.text = wanted.toList := by
  obtain ⟨v, -, rfl⟩ := List.mem_map.mp h
  by_cases hv : v = wanted
  · obtain rfl : name = other := by simpa [hv] using hname
    exact ⟨rfl, congrArg String.toList hv⟩
  · simp [hv] at hname

theorem exists_listingPiece (h : wanted ∈ values) :
    ∃ piece ∈ listingPieces values wanted name, piece.name? = some name :=
  ⟨_, List.mem_map_of_mem h, if_pos rfl⟩

theorem names_listingPieces (h : wanted ∈ values) (hnodup : values.Nodup) :
    (listingPieces values wanted name).filterMap Piece.name? = [name] := by
  have hnone : ∀ others : List String, wanted ∉ others →
      (listingPieces others wanted name).filterMap Piece.name? = [] := by
    intro others hothers
    rw [List.filterMap_eq_nil_iff]
    intro piece hpiece
    obtain ⟨v, hv, rfl⟩ := List.mem_map.mp hpiece
    exact if_neg fun he : v = wanted => hothers (he ▸ hv)
  obtain ⟨before, after, rfl⟩ := List.append_of_mem h
  have hsplit := List.nodup_append.mp hnodup
  have hbefore : wanted ∉ before := fun hmem => hsplit.2.2 wanted hmem wanted (by simp) rfl
  have hafter : wanted ∉ after := (List.nodup_cons.mp hsplit.2.1).1
  rw [listingPieces, List.map_append, List.map_cons, List.filterMap_append, List.filterMap_cons]
  simp only [if_true]
  exact congrArg₂ (· ++ name :: ·) (hnone before hbefore) (hnone after hafter)

end Listing

/-! ## Head records -/

/-- A head record: the listing, and then a state and what is under the head. -/
def recordText (d : Definition) (state cursor : List Char) : List Char :=
  headMark :: (d.listing.toList ++ '-' :: (state ++ ':' :: (cursor ++ [headMark])))

/-- A head record that lists any states and symbols. -/
def listedRecord (states symbols : List String) (state cursor : List Char) : List Char :=
  headMark :: (states.flatMap String.toList ++ ':' :: (symbols.flatMap String.toList ++
    '-' :: (state ++ ':' :: (cursor ++ [headMark]))))

theorem recordText_eq_listedRecord (d : Definition) (state cursor : List Char) :
    recordText d state cursor = listedRecord d.states d.symbols state cursor := by
  simp [recordText, listedRecord, Definition.toList_listing]

namespace Transition

variable (t : Transition) (states symbols : List String) (i : ℕ)

/-- What the clause matches in the head record. -/
def recordPieces : List Piece :=
  ⟨[headMark], none⟩ :: listingPieces states t.next (stateCapture i) ++
    ⟨[':'], none⟩ :: listingPieces symbols t.written (t.writtenCapture i) ++
    [⟨s!"-{t.state}:{t.symbol}".toList, none⟩, ⟨[headMark], none⟩]

/-- The items of the clause. -/
def clauseItems : List Regex :=
  let record := (t.recordPieces states symbols i).flatMap Piece.items
  let cell := Regex.capture (cursorCapture i) .word
  if t.direction = .right then record ++ [cell] else cell :: record

theorem regex_eq : t.regex states symbols i = concat (t.clauseItems states symbols i) := by
  have hrecord : t.recordItems states symbols i =
      (t.recordPieces states symbols i).flatMap Piece.items := by
    simp [recordItems, recordPieces, listingItems_eq, Piece.items]
  rw [regex, clauseItems, hrecord]

variable {t states symbols i}

theorem name_recordPieces {piece : Piece} (h : piece ∈ t.recordPieces states symbols i)
    {name : String} (hname : piece.name? = some name) :
    name = stateCapture i ∧ piece.text = t.next.toList ∨
      name = t.writtenCapture i ∧ piece.text = t.written.toList := by
  simp only [recordPieces, List.cons_append, List.append_assoc, List.mem_cons, List.mem_append,
    List.not_mem_nil, or_false] at h
  rcases h with rfl | h | rfl | h | rfl | rfl
  · cases hname
  · exact .inl (name_listingPieces h hname)
  · cases hname
  · exact .inr (name_listingPieces h hname)
  · cases hname
  · cases hname

theorem exists_recordPiece (hnext : t.next ∈ states) (hwritten : t.written ∈ symbols) :
    (∃ piece ∈ t.recordPieces states symbols i, piece.name? = some (stateCapture i)) ∧
      ∃ piece ∈ t.recordPieces states symbols i, piece.name? = some (t.writtenCapture i) := by
  obtain ⟨piece, hpiece, hname⟩ := @exists_listingPiece states t.next (stateCapture i) hnext
  obtain ⟨piece', hpiece', hname'⟩ :=
    @exists_listingPiece symbols t.written (t.writtenCapture i) hwritten
  exact ⟨⟨piece, by simp [recordPieces, hpiece], hname⟩,
    ⟨piece', by simp [recordPieces, hpiece'], hname'⟩⟩

theorem names_recordPieces (hnext : t.next ∈ states) (hwritten : t.written ∈ symbols)
    (hstates : states.Nodup) (hsymbols : symbols.Nodup) :
    (t.recordPieces states symbols i).filterMap Piece.name? =
      [stateCapture i, t.writtenCapture i] := by
  simp [recordPieces, names_listingPieces hnext hstates, names_listingPieces hwritten hsymbols]

variable (t states symbols i) in
theorem text_recordPieces :
    (t.recordPieces states symbols i).flatMap Piece.text =
      listedRecord states symbols t.state.toList t.symbol.toList := by
  have hcurrent : s!"-{t.state}:{t.symbol}".toList =
      '-' :: (t.state.toList ++ ':' :: t.symbol.toList) := by
    change ("-" ++ t.state ++ ":" ++ t.symbol).toList = _
    simp
  simp [recordPieces, listedRecord, text_listingPieces, hcurrent]

/-! ## Matching -/

/-- What the clause takes: the head record, and the word character that the head moves to. -/
def matchText (t : Transition) (d : Definition) (c : Char) : List Char :=
  let record := recordText d t.state.toList t.symbol.toList
  if t.direction = .right then record ++ [c] else c :: record

/-- What the clause takes if the record lists any states and symbols. -/
def listedText (t : Transition) (states symbols : List String) (c : Char) : List Char :=
  let record := listedRecord states symbols t.state.toList t.symbol.toList
  if t.direction = .right then record ++ [c] else c :: record

theorem matchText_eq_listedText (d : Definition) (c : Char) :
    t.matchText d c = t.listedText d.states d.symbols c := by
  rw [matchText, listedText, recordText_eq_listedRecord]

theorem length_listedText (c : Char) :
    (t.listedText states symbols c).length =
      (listedRecord states symbols t.state.toList t.symbol.toList).length + 1 := by
  rw [listedText]
  split <;> simp

theorem length_matchText (d : Definition) (c : Char) :
    (t.matchText d c).length = (recordText d t.state.toList t.symbol.toList).length + 1 := by
  rw [matchText_eq_listedText, length_listedText, recordText_eq_listedRecord]

/-- What a match of the clause must be. -/
structure MatchesRecord (text : Array Char) (states symbols : List String) (t : Transition)
    (i p : ℕ) (c : Char) (m : Match) : Prop where
  stop : m.stop = p + (t.listedText states symbols c).length
  names : ∀ name span, (name, span) ∈ m.captures → name ∈ t.captureNames i
  state : m.captured text (stateCapture i) = t.next.toList
  written : m.captured text (t.writtenCapture i) = t.written.toList
  cursor : m.captured text (cursorCapture i) = [c]

variable (text : Array Char) (p : ℕ)

/-- What the captures of the record at position `q` span. -/
theorem extract_of_mem_spans {i q : ℕ} {name : String} {span : ℕ × ℕ}
    (hrecord : listedRecord states symbols t.state.toList t.symbol.toList <+: text.toList.drop q)
    (h : (name, span) ∈ Piece.spans q (t.recordPieces states symbols i)) :
    name = stateCapture i ∧ (text.extract span.1 span.2).toList = t.next.toList ∨
      name = t.writtenCapture i ∧ (text.extract span.1 span.2).toList = t.written.toList := by
  rw [← text_recordPieces t states symbols i] at hrecord
  obtain ⟨piece, hpiece, hname, htext⟩ := Piece.mem_spans text q h hrecord
  rw [htext]
  exact name_recordPieces hpiece hname

/-- The captures of the record at position `q` and of the cell at position `z`. -/
theorem captured_record (i : ℕ) (m : Match) {q z : ℕ} {c : Char} (hnext : t.next ∈ states)
    (hwritten : t.written ∈ symbols)
    (hrecord : listedRecord states symbols t.state.toList t.symbol.toList <+: text.toList.drop q)
    (hcell : [c] <+: text.toList.drop z)
    (hcaptures : ∀ name span, (name, span) ∈ m.captures ↔
      (name, span) ∈ Piece.spans q (t.recordPieces states symbols i) ∨
        name = cursorCapture i ∧ span = (z, z + 1)) :
    (∀ name span, (name, span) ∈ m.captures → name ∈ t.captureNames i) ∧
      m.captured text (stateCapture i) = t.next.toList ∧
      m.captured text (t.writtenCapture i) = t.written.toList ∧
      m.captured text (cursorCapture i) = [c] := by
  have hnodup := t.nodup_captureNames i
  simp only [captureNames, List.nodup_cons, List.mem_cons, List.not_mem_nil, or_false, not_or]
    at hnodup
  obtain ⟨⟨hstatewritten, hstatecursor⟩, hwrittencursor, -⟩ := hnodup
  have hextract : ∀ name span, (name, span) ∈ m.captures →
      name = stateCapture i ∧ (text.extract span.1 span.2).toList = t.next.toList ∨
        name = t.writtenCapture i ∧ (text.extract span.1 span.2).toList = t.written.toList ∨
        name = cursorCapture i ∧ (text.extract span.1 span.2).toList = [c] := by
    intro name span hmem
    rcases (hcaptures name span).mp hmem with hmem | ⟨hname, rfl⟩
    · exact (extract_of_mem_spans text hrecord hmem).imp_right .inl
    · exact .inr (.inr ⟨hname, extract_of_prefix_drop [c] text z hcell⟩)
  obtain ⟨⟨piece, hpiece, hname⟩, piece', hpiece', hname'⟩ :=
    @exists_recordPiece t states symbols i hnext hwritten
  refine ⟨?_, ?_, ?_, ?_⟩
  · intro name span hmem
    rcases hextract name span hmem with ⟨rfl, -⟩ | ⟨rfl, -⟩ | ⟨rfl, -⟩ <;> simp [captureNames]
  · obtain ⟨span, hmem⟩ := Piece.exists_mem_spans q hpiece hname
    refine m.captured_of_holds text _ _ ⟨⟨span, (hcaptures _ _).mpr (.inl hmem)⟩, ?_⟩
    intro span hmem
    rcases hextract _ span hmem with ⟨-, htext⟩ | ⟨hname, -⟩ | ⟨hname, -⟩
    · exact htext
    · exact absurd hname hstatewritten
    · exact absurd hname hstatecursor
  · obtain ⟨span, hmem⟩ := Piece.exists_mem_spans q hpiece' hname'
    refine m.captured_of_holds text _ _ ⟨⟨span, (hcaptures _ _).mpr (.inl hmem)⟩, ?_⟩
    intro span hmem
    rcases hextract _ span hmem with ⟨hname, -⟩ | ⟨-, htext⟩ | ⟨hname, -⟩
    · exact absurd hname.symm hstatewritten
    · exact htext
    · exact absurd hname hwrittencursor
  · refine m.captured_of_holds text _ _ ⟨⟨_, (hcaptures _ _).mpr (.inr ⟨rfl, rfl⟩)⟩, ?_⟩
    intro span hmem
    rcases hextract _ span hmem with ⟨hname, -⟩ | ⟨hname, -⟩ | ⟨-, htext⟩
    · exact absurd hname.symm hstatecursor
    · exact absurd hname.symm hwrittencursor
    · exact htext

theorem run_cell (name : String) (cs : Captures) (next : ℕ → Captures → Option Match) :
    run text (.capture name .word) p cs next =
      match text[p]? with
      | some c => if isWord c then next (p + 1) ((name, p, p + 1) :: cs) else none
      | none => none := rfl

theorem matchAt_of_right (hright : t.direction = .right) :
    (concat (t.clauseItems states symbols i)).matchAt text p =
      if listedRecord states symbols t.state.toList t.symbol.toList <+: text.toList.drop p then
        run text (.capture (cursorCapture i) .word)
          (p + (listedRecord states symbols t.state.toList t.symbol.toList).length)
          (Piece.spans p (t.recordPieces states symbols i) ++ []) fun q cs => some ⟨q, cs⟩
      else none := by
  simp only [matchAt, clauseItems, hright, if_true, Piece.run_flatMap_items, text_recordPieces,
    concat]

theorem matchAt_of_not_right (hleft : t.direction ≠ .right) :
    (concat (t.clauseItems states symbols i)).matchAt text p =
      run text (.capture (cursorCapture i) .word) p [] fun q cs =>
        if listedRecord states symbols t.state.toList t.symbol.toList <+: text.toList.drop q then
          some ⟨q + (listedRecord states symbols t.state.toList t.symbol.toList).length,
            Piece.spans q (t.recordPieces states symbols i) ++ cs⟩
        else none := by
  have hrun := fun q cs => Piece.run_flatMap_items text q cs (fun q cs => some ⟨q, cs⟩)
    (t.recordPieces states symbols i) []
  simp only [List.append_nil, text_recordPieces, concat, run] at hrun
  simp only [matchAt, clauseItems, hleft, if_false, run_concat_cons, hrun]

theorem matchAt_of_listedText (hnext : t.next ∈ states) (hwritten : t.written ∈ symbols) {c : Char}
    (hword : isWord c = true) (h : t.listedText states symbols c <+: text.toList.drop p) :
    ∃ m, (concat (t.clauseItems states symbols i)).matchAt text p = some m ∧
      MatchesRecord text states symbols t i p c m := by
  by_cases hright : t.direction = .right
  · simp only [listedText, hright, if_true, append_prefix_drop_iff] at h
    have hcell := ((cons_prefix_drop_iff _ _ _ _).mp h.2).1
    rw [Array.getElem?_toList] at hcell
    let z := p + (listedRecord states symbols t.state.toList t.symbol.toList).length
    let m : Match := ⟨z + 1, (cursorCapture i, z, z + 1) ::
      (Piece.spans p (t.recordPieces states symbols i) ++ [])⟩
    have hmatch : (concat (t.clauseItems states symbols i)).matchAt text p = some m := by
      rw [matchAt_of_right text p hright, if_pos h.1, run_cell, hcell]
      exact if_pos hword
    obtain ⟨hnames, hstate, hwritten, hcursor⟩ :=
      captured_record text i m hnext hwritten h.1 h.2 (by simp [m, z, or_comm])
    refine ⟨m, hmatch, ?_, hnames, hstate, hwritten, hcursor⟩
    rw [length_listedText, ← Nat.add_assoc]
  · simp only [listedText, hright, if_false, cons_prefix_drop_iff] at h
    have hcell := h.1
    rw [Array.getElem?_toList] at hcell
    let m : Match := ⟨p + 1 + (listedRecord states symbols t.state.toList t.symbol.toList).length,
      Piece.spans (p + 1) (t.recordPieces states symbols i) ++
        [(cursorCapture i, p, p + 1)]⟩
    have hmatch : (concat (t.clauseItems states symbols i)).matchAt text p = some m := by
      rw [matchAt_of_not_right text p hright, run_cell, hcell]
      simp only [hword, if_true, h.2]
      rfl
    have hcursor : [c] <+: text.toList.drop p := by
      rw [cons_prefix_drop_iff]
      exact ⟨h.1, List.nil_prefix⟩
    obtain ⟨hnames, hstate, hwritten, hcursor⟩ :=
      captured_record text i m hnext hwritten h.2 hcursor (by simp [m])
    refine ⟨m, hmatch, ?_, hnames, hstate, hwritten, hcursor⟩
    rw [length_listedText, Nat.add_comm _ 1, ← Nat.add_assoc]

theorem matchAt_eq_none
    (h : ∀ c, isWord c = true → ¬ t.listedText states symbols c <+: text.toList.drop p) :
    (concat (t.clauseItems states symbols i)).matchAt text p = none := by
  by_cases hright : t.direction = .right
  · rw [matchAt_of_right text p hright, run_cell]
    split
    · rename_i hrecord
      split
      · rename_i c hcell
        rw [if_neg]
        intro hword
        apply h c hword
        simp only [listedText, hright, if_true, append_prefix_drop_iff, cons_prefix_drop_iff,
          Array.getElem?_toList, List.nil_prefix, and_true]
        exact ⟨hrecord, hcell⟩
      · rfl
    · rfl
  · rw [matchAt_of_not_right text p hright, run_cell]
    split
    · rename_i c hcell
      split
      · rename_i hword
        rw [if_neg]
        intro hrecord
        apply h c hword
        simp only [listedText, hright, if_false, cons_prefix_drop_iff, Array.getElem?_toList]
        exact ⟨hcell, hrecord⟩
      · rfl
    · rfl

end Transition

end SubstitutionAutomata
