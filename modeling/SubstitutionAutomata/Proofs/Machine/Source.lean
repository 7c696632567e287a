import SubstitutionAutomata.Proofs.Machine.Definition
import SubstitutionAutomata.Proofs.Text.Lines
import Mathlib.Data.List.Nodup

/-! # Definitions from text

The lines of a text define the machine that they define as a list, whatever ends them. States and
symbols are listed by their first mention, and the table holds the first transition for every state
and symbol. A text with a line that is no transition is refused by the first such line. -/

namespace SubstitutionAutomata

open Text

/-! ## First mentions -/

/-- A list holds what another list mentions, each value once and in the order of first mentions. -/
structure ListsFirst {α : Type} [BEq α] (listed mentioned : List α) : Prop where
  mem_iff : ∀ a, a ∈ listed ↔ a ∈ mentioned
  nodup : listed.Nodup
  ordered : listed.Pairwise fun a b => mentioned.idxOf a < mentioned.idxOf b

theorem pairwise_firstSeen {α : Type} [BEq α] [LawfulBEq α] (l : List α) :
    (firstSeen l).Pairwise fun a b => l.idxOf a < l.idxOf b := by
  induction l with
  | nil => exact .nil
  | cons a l ih =>
      have hlater : ∀ b ∈ (firstSeen l).filter (fun b => !(b == a)),
          (a :: l).idxOf b = l.idxOf b + 1 := by
        intro b hb
        have hne : b ≠ a := by simpa using (List.mem_filter.mp hb).2
        exact List.idxOf_cons_ne _ hne.symm
      rw [firstSeen, List.pairwise_cons]
      constructor
      · intro b hb
        rw [List.idxOf_cons_self, hlater b hb]
        omega
      · refine (ih.filter _).imp_of_mem fun {b c} hb hc hlt => ?_
        rw [hlater b hb, hlater c hc]
        omega

theorem listsFirst_firstSeen {α : Type} [BEq α] [LawfulBEq α] (l : List α) :
    ListsFirst (firstSeen l) l :=
  ⟨fun a => mem_firstSeen a l, nodup_firstSeen l, pairwise_firstSeen l⟩

/-! ## The table -/

/-- A table made of keys and what is found for them. -/
theorem lookup_filterMap {α β : Type} [BEq α] [LawfulBEq α] (found : α → Option β)
    (keys : List α) (key : α) (h : key ∈ keys ∨ found key = none) :
    (keys.filterMap fun key => (found key).map fun b => (key, b)).lookup key = found key := by
  induction keys with
  | nil => simpa [eq_comm] using h
  | cons a keys ih =>
      by_cases hkey : key = a
      · subst hkey
        cases hfound : found key with
        | none =>
            rw [List.filterMap_cons_none (by rw [hfound]; rfl), ih (.inr hfound), hfound]
        | some b =>
            rw [List.filterMap_cons_some (b := (key, b)) (by rw [hfound]; rfl),
              List.lookup_cons_self]
      · have hrest := ih (h.imp_left fun h => (List.mem_cons.mp h).resolve_left hkey)
        cases hfound : found a with
        | none => rw [List.filterMap_cons_none (by rw [hfound]; rfl), hrest]
        | some b =>
            rw [List.filterMap_cons_some (b := (a, b)) (by rw [hfound]; rfl), List.lookup_cons,
              beq_false_of_ne hkey, hrest]

namespace Definition

variable {d : Definition}

/-- The first transition of a definition for a state and a symbol. -/
def FirstFor (d : Definition) (key : String × String) (t : Transition) : Prop :=
  ∃ before after, d.transitions = before ++ t :: after ∧ (t.state, t.symbol) = key ∧
    ∀ t' ∈ before, (t'.state, t'.symbol) ≠ key

theorem find?_eq_some_iff_firstFor (key : String × String) (t : Transition) :
    (d.transitions.find? fun t => (t.state, t.symbol) = key) = some t ↔ d.FirstFor key t := by
  rw [List.find?_eq_some_iff_append]
  constructor
  · rintro ⟨hkey, before, after, hsplit, hbefore⟩
    exact ⟨before, after, hsplit, by simpa using hkey, fun t' ht' => by simpa using hbefore t' ht'⟩
  · rintro ⟨before, after, hsplit, hkey, hbefore⟩
    exact ⟨by simpa using hkey, before, after, hsplit, fun t' ht' => by simpa using hbefore t' ht'⟩

/-- The table has one entry for each state and symbol that has a transition. -/
theorem map_fst_table (d : Definition) :
    d.table.map Prod.fst = firstSeen (d.transitions.map fun t => (t.state, t.symbol)) := by
  rw [table, List.map_filterMap]
  conv_rhs => rw [← List.filterMap_some (l := firstSeen _)]
  apply List.filterMap_congr
  intro key hkey
  obtain ⟨t, ht, rfl⟩ := List.mem_map.mp ((mem_firstSeen _ _).mp hkey)
  obtain ⟨t', hfound⟩ := Option.isSome_iff_exists.mp
    (List.find?_isSome (p := fun t' => (t'.state, t'.symbol) = (t.state, t.symbol)).mpr
      ⟨t, ht, by simp⟩)
  rw [hfound]
  rfl

theorem lookup_table (d : Definition) (key : String × String) :
    d.table.lookup key = d.transitions.find? fun t => (t.state, t.symbol) = key := by
  let found := fun key => d.transitions.find? fun t => (t.state, t.symbol) = key
  refine lookup_filterMap found _ key ?_
  by_cases hkey : key ∈ d.transitions.map fun t => (t.state, t.symbol)
  · exact .inl ((mem_firstSeen _ _).mpr hkey)
  · refine .inr (List.find?_eq_none.mpr fun t ht h => hkey ?_)
    exact List.mem_map.mpr ⟨t, ht, by simpa using h⟩

/-- Looking up in the table is what a machine does. -/
theorem transition?_eq_lookup (d : Definition) (state symbol : String) :
    d.transition? state symbol = d.table.lookup (state, symbol) := by
  rw [lookup_table, transition?]
  simp

end Definition

/-! ## Lines of transitions -/

theorem not_isWord_of_isBreak {c : Char} (h : isBreak c = true) : isWord c = false := by
  obtain ⟨n, hn, rfl⟩ := exists_ofNat_of_isBreak h
  revert n
  decide +kernel

theorem not_isDigit_of_isBreak {c : Char} (h : isBreak c = true) : isDigit c = false := by
  obtain ⟨n, hn, rfl⟩ := exists_ofNat_of_isBreak h
  revert n
  decide +kernel

namespace Transition

variable {line : String} {t : Transition}

theorem Written.ne_empty (h : Written line t) : line ≠ "" := by
  cases h with
  | line => exact fun h => List.cons_ne_nil _ _ (String.ofList_eq_empty_iff.mp h)

/-- No line break stands in a transition, which has no other characters than its letters and
marks. -/
theorem Written.not_isBreak (h : Written line t) : ∀ c ∈ line.toList, isBreak c = false := by
  have hword : ∀ c, isWord c = true → isBreak c = false := fun c hc => by
    by_contra hbreak
    simp [not_isWord_of_isBreak (by simpa using hbreak)] at hc
  have hdigit : ∀ c, isDigit c = true → isBreak c = false := fun c hc => by
    by_contra hbreak
    simp [not_isDigit_of_isBreak (by simpa using hbreak)] at hc
  cases h with
  | line digits digits' x y letter direction _ hdigits hx hy hletter _ hdigits' =>
      have hmove : isBreak letter = false := by
        rcases hletter with ⟨rfl, -⟩ | ⟨rfl, -⟩ <;> decide
      simp only [String.toList_ofList, List.forall_mem_cons, List.forall_mem_append]
      refine ⟨by decide, fun c hc => hdigit c (hdigits c hc), by decide, hword x hx, by decide,
        hword y hy, by decide, by decide, hmove, by decide, by decide, ?_⟩
      exact fun c hc => hdigit c (hdigits' c hc)

end Transition

namespace Definition

/-- The first of some lines that is no transition. -/
def FirstRefused (lines : List String) (line : String) : Prop :=
  ∃ before after, lines = before ++ line :: after ∧
    (∀ l ∈ before, ∃ t, Transition.Written l t) ∧ ∀ t, ¬ Transition.Written line t

theorem firstRefused_cons_iff {line : String} {t : Transition} (h : Transition.Written line t)
    (lines : List String) (refused : String) :
    FirstRefused (line :: lines) refused ↔ FirstRefused lines refused := by
  constructor
  · rintro ⟨before, after, hsplit, hbefore, hrefused⟩
    cases before with
    | nil =>
        obtain ⟨rfl, -⟩ := List.cons.inj hsplit
        exact absurd h (hrefused t)
    | cons l before =>
        obtain ⟨-, hrest⟩ := List.cons.inj hsplit
        exact ⟨before, after, hrest, fun l hl => hbefore l (List.mem_cons_of_mem _ hl), hrefused⟩
  · rintro ⟨before, after, rfl, hbefore, hrefused⟩
    exact ⟨line :: before, after, rfl, List.forall_mem_cons.mpr ⟨⟨t, h⟩, hbefore⟩, hrefused⟩

/-- Reading stops at the first line that is no transition, and nowhere else. -/
theorem mapM_parse_eq_error_iff (lines : List String) (e : Transition.Malformed) :
    lines.mapM Transition.parse = .error e ↔ FirstRefused lines e.line := by
  induction lines with
  | nil =>
      refine iff_of_false (fun h => by cases h) ?_
      rintro ⟨before, after, hsplit, -⟩
      simp at hsplit
  | cons line lines ih =>
      rw [List.mapM_cons]
      cases hparse : Transition.parse line with
      | error e' =>
          obtain ⟨rfl, hrefused⟩ := (Transition.parse_eq_error_iff line e').mp hparse
          constructor
          · intro h
            obtain rfl := Except.error.inj h
            exact ⟨[], lines, rfl, List.forall_mem_nil _, hrefused⟩
          · rintro ⟨before, after, hsplit, hbefore, -⟩
            cases before with
            | nil =>
                obtain ⟨rfl, -⟩ := List.cons.inj hsplit
                rfl
            | cons l before =>
                obtain ⟨rfl, -⟩ := List.cons.inj hsplit
                obtain ⟨t, ht⟩ := hbefore line List.mem_cons_self
                exact absurd ht (hrefused t)
      | ok t =>
          rw [firstRefused_cons_iff ((Transition.parse_eq_ok_iff line t).mp hparse), ← ih]
          cases lines.mapM Transition.parse with
          | error e' => exact Iff.rfl
          | ok ts => exact iff_of_false (fun h => by cases h) fun h => by cases h

theorem ofLines_eq_malformed_iff (lines accepting : List String) (e : Transition.Malformed) :
    ofLines lines accepting = .error (.malformed e) ↔ FirstRefused lines e.line := by
  rw [← mapM_parse_eq_error_iff, ofLines]
  cases lines.mapM Transition.parse with
  | error e' => simp
  | ok ts => cases ts <;> simp

theorem exists_firstRefused {lines : List String}
    (h : ∃ line ∈ lines, ∀ t, ¬ Transition.Written line t) : ∃ line, FirstRefused lines line := by
  induction lines with
  | nil => simp at h
  | cons line lines ih =>
      by_cases hline : ∃ t, Transition.Written line t
      · obtain ⟨t, ht⟩ := hline
        obtain ⟨l, hl, hrefused⟩ := h
        have hmem : l ∈ lines := (List.mem_cons.mp hl).resolve_left fun h =>
          hrefused t (h ▸ ht)
        obtain ⟨refused, hfirst⟩ := ih ⟨l, hmem, hrefused⟩
        exact ⟨refused, (firstRefused_cons_iff ht lines refused).mpr hfirst⟩
      · exact ⟨line, [], lines, rfl, List.forall_mem_nil _, not_exists.mp hline⟩

/-- Lines of transitions define a machine with these transitions. -/
theorem exists_ofLines {lines : List String} (accepting : List String) (hne : lines ≠ [])
    (h : ∀ line ∈ lines, ∃ t, Transition.Written line t) :
    ∃ d, ofLines lines accepting = .ok d ∧ List.Forall₂ Transition.Written lines d.transitions := by
  cases hread : ofLines lines accepting with
  | ok d =>
      refine ⟨d, rfl, ?_⟩
      exact (forall₂_parse_of_ofLines hread).imp fun line t =>
        (Transition.parse?_eq_some_iff line t).mp
  | error e =>
      cases e with
      | malformed e =>
          obtain ⟨before, after, hsplit, -, hrefused⟩ :=
            (ofLines_eq_malformed_iff lines accepting e).mp hread
          obtain ⟨t, ht⟩ := h e.line (by simp [hsplit])
          exact absurd ht (hrefused t)
      | noTransition => exact absurd ((ofLines_eq_noTransition_iff lines accepting).mp hread) hne

/-- Lines joined by breaks of any kind define what the list of lines defines, with states and
symbols in the order of first mentions and a table of the first transitions. A text is refused by
the first of its lines that is no transition. -/
theorem text_reads_back :
    (∀ (lines accepting : List String) (text : String), Joined lines text →
      (∀ line ∈ lines, ∃ t, Transition.Written line t) →
        ∃ d, ofText text accepting = .ok d ∧ ofLines lines accepting = .ok d ∧
          List.Forall₂ Transition.Written lines d.transitions ∧
          ListsFirst d.states (d.transitions.flatMap fun t => [t.state, t.next]) ∧
          ListsFirst d.symbols (d.transitions.flatMap fun t => [t.symbol, t.written]) ∧
          ListsFirst (d.table.map Prod.fst) (d.transitions.map fun t => (t.state, t.symbol)) ∧
          (∀ key t, d.table.lookup key = some t ↔ d.FirstFor key t) ∧
          ∀ state symbol, d.transition? state symbol = d.table.lookup (state, symbol)) ∧
      ∀ (lines accepting : List String) (text : String),
        Cut text.toList (lines.map String.toList) →
        (∃ line ∈ lines, ∀ t, ¬ Transition.Written line t) →
          ∃ line, FirstRefused lines line ∧
            ofText text accepting = .error (.malformed ⟨line⟩) := by
  constructor
  · intro lines accepting text hjoined hlines
    obtain ⟨d, hread, hall⟩ := exists_ofLines accepting hjoined.ne_nil hlines
    have htext : ofText text accepting = .ok d := by
      rw [ofText, hjoined.lines_eq, hread]
      · exact fun line hline => (hlines line hline).choose_spec.ne_empty
      · exact fun line hline => (hlines line hline).choose_spec.not_isBreak
    refine ⟨d, htext, hread, hall, listsFirst_firstSeen _, listsFirst_firstSeen _, ?_, ?_,
      d.transition?_eq_lookup⟩
    · rw [map_fst_table]
      exact listsFirst_firstSeen _
    · intro key t
      rw [lookup_table, find?_eq_some_iff_firstFor]
  · intro lines accepting text hcut hrefused
    obtain ⟨line, hfirst⟩ := exists_firstRefused hrefused
    refine ⟨line, hfirst, ?_⟩
    rw [ofText, (lines_eq_iff text lines).mpr hcut]
    exact (ofLines_eq_malformed_iff lines accepting ⟨line⟩).mpr hfirst

/-- Two lines joined by a carriage return and ended by a paragraph separator; and a text with a
blank line. -/
theorem text_reads_back_mixed :
    Joined ["Q7:b/a->R:Q0", "Q0:a/c->L:Q7"] "Q7:b/a->R:Q0\rQ0:a/c->L:Q7\u2029" ∧
      (∃ d, ofText "Q7:b/a->R:Q0\rQ0:a/c->L:Q7\u2029" [] = .ok d ∧ d.states = ["Q7", "Q0"] ∧
        d.symbols = ["b", "a", "c"] ∧
        d.table.lookup ("Q0", "a") = some ⟨"Q0", "a", "c", .left, "Q7"⟩) ∧
      Cut "Q7:b/a->R:Q0\r\n\r\nx".toList (["Q7:b/a->R:Q0", "", "x"].map String.toList) ∧
      ofText "Q7:b/a->R:Q0\r\n\r\nx" [] = .error (.malformed ⟨""⟩) := by
  obtain ⟨hreads, hrefuses⟩ := text_reads_back
  have hfirst : Transition.Written "Q7:b/a->R:Q0" ⟨"Q7", "b", "a", .right, "Q0"⟩ :=
    (Transition.parse?_eq_some_iff _ _).mp (by rfl)
  have hsecond : Transition.Written "Q0:a/c->L:Q7" ⟨"Q0", "a", "c", .left, "Q7"⟩ :=
    (Transition.parse?_eq_some_iff _ _).mp (by rfl)
  have hjoined : Joined ["Q7:b/a->R:Q0", "Q0:a/c->L:Q7"] "Q7:b/a->R:Q0\rQ0:a/c->L:Q7\u2029" :=
    .cons "Q7:b/a->R:Q0" "\r" (by decide) (.last "Q0:a/c->L:Q7" "\u2029" (.inr (by decide)))
  have hcut : Cut "Q7:b/a->R:Q0\r\n\r\nx".toList
      (["Q7:b/a->R:Q0", "", "x"].map String.toList) :=
    (lines_eq_iff _ _).mp (by rfl)
  refine ⟨hjoined, ?_, hcut, ?_⟩
  · obtain ⟨d, htext, hlines, -, -, -, -, htable, -⟩ := hreads _ [] _ hjoined
      (List.forall_mem_cons.mpr ⟨⟨_, hfirst⟩, List.forall_mem_singleton.mpr ⟨_, hsecond⟩⟩)
    have hd : ofLines ["Q7:b/a->R:Q0", "Q0:a/c->L:Q7"] [] =
        .ok ⟨["Q7:b/a->R:Q0", "Q0:a/c->L:Q7"],
          [⟨"Q7", "b", "a", .right, "Q0"⟩, ⟨"Q0", "a", "c", .left, "Q7"⟩], [],
          List.cons_ne_nil _ _⟩ := by rfl
    obtain rfl := Except.ok.inj (hlines.symm.trans hd)
    exact ⟨_, htext, by decide, by decide, (htable _ _).mpr ⟨[_], [], rfl, rfl, by simp⟩⟩
  · obtain ⟨line, hrefused, herror⟩ := hrefuses _ [] _ hcut
      ⟨"", by simp, fun t h => h.ne_empty rfl⟩
    rw [firstRefused_cons_iff hfirst] at hrefused
    obtain ⟨before, after, hsplit, hbefore, -⟩ := hrefused
    cases before with
    | nil =>
        obtain ⟨rfl, -⟩ := List.cons.inj hsplit
        exact herror
    | cons l before =>
        obtain ⟨rfl, -⟩ := List.cons.inj hsplit
        obtain ⟨t, ht⟩ := hbefore "" List.mem_cons_self
        exact absurd rfl ht.ne_empty

end Definition

end SubstitutionAutomata
