import SubstitutionAutomata.Machine.Clause
import SubstitutionAutomata.Machine.Definition
import SubstitutionAutomata.Proofs.Machine.Transition
import Mathlib.Data.List.Forall2
import Mathlib.Data.List.Nodup

/-! # What definitions mention

The states of a definition that was read are a Q with digits and its symbols are single word
characters, so its listing holds no head mark. -/

namespace SubstitutionAutomata

open Text

/-! ## First occurrences -/

section FirstSeen

variable {α : Type} [BEq α] [LawfulBEq α]

theorem mem_firstSeen (a : α) (l : List α) : a ∈ firstSeen l ↔ a ∈ l := by
  induction l with
  | nil => rfl
  | cons b l ih =>
      by_cases h : a = b
      · simp [firstSeen, h]
      · simp [firstSeen, h, ih]

theorem nodup_firstSeen (l : List α) : (firstSeen l).Nodup := by
  induction l with
  | nil => exact List.nodup_nil
  | cons b l ih =>
      rw [firstSeen, List.nodup_cons]
      refine ⟨?_, ih.filter _⟩
      simp [List.mem_filter]

end FirstSeen

/-! ## States and symbols -/

theorem not_isDigit_headMark : isDigit headMark = false := by decide

theorem not_isWord_headMark : isWord headMark = false := by decide +kernel

theorem IsState.headMark_not_mem {s : String} (h : IsState s) : headMark ∉ s.toList := by
  obtain ⟨digits, hs, -, hdigits⟩ := h
  rw [hs, List.mem_cons]
  rintro (hq | hmem)
  · cases hq
  · exact absurd (hdigits headMark hmem) (by simp [not_isDigit_headMark])

theorem IsSymbol.headMark_not_mem {s : String} (h : IsSymbol s) : headMark ∉ s.toList := by
  obtain ⟨c, rfl, hword⟩ := h
  intro hmem
  obtain rfl : headMark = c := by simpa [Char.toString] using hmem
  exact absurd hword (by simp [not_isWord_headMark])

namespace Definition

/-- Lines are read one by one. -/
theorem mapM_parse_eq_ok_iff (lines : List String) (ts : List Transition) :
    lines.mapM Transition.parse = .ok ts ↔
      List.Forall₂ (fun line t => Transition.parse? line = some t) lines ts := by
  induction lines generalizing ts with
  | nil =>
      rw [List.forall₂_nil_left_iff]
      exact ⟨fun h => (Except.ok.inj h).symm, fun h => congrArg Except.ok h.symm⟩
  | cons line lines ih =>
      rw [List.mapM_cons, Transition.parse, List.forall₂_cons_left_iff]
      cases hparse : Transition.parse? line with
      | none =>
          refine iff_of_false (fun h => by cases h) ?_
          rintro ⟨_, _, h, -⟩
          cases h
      | some t =>
          cases hrest : lines.mapM Transition.parse with
          | error e =>
              refine iff_of_false (fun h => by cases h) ?_
              rintro ⟨_, rest, -, hall, -⟩
              cases hrest.symm.trans ((ih rest).mpr hall)
          | ok rest =>
              constructor
              · intro h
                exact ⟨t, rest, rfl, (ih rest).mp hrest, (Except.ok.inj h).symm⟩
              · rintro ⟨t', rest', ht, hall, rfl⟩
                rw [Except.ok.inj (hrest.symm.trans ((ih rest').mpr hall)), Option.some.inj ht]
                rfl

theorem forall₂_parse_of_ofLines {lines accepting : List String} {d : Definition}
    (h : ofLines lines accepting = .ok d) :
    List.Forall₂ (fun line t => Transition.parse? line = some t) lines d.transitions := by
  unfold ofLines at h
  split at h
  · cases h
  · cases h
  · rename_i t ts hlines
    obtain rfl := Except.ok.inj h
    exact (mapM_parse_eq_ok_iff _ _).mp hlines

/-- Every transition that was read is one of the lines. -/
theorem exists_line_of_ofLines {lines accepting : List String} {d : Definition}
    (h : ofLines lines accepting = .ok d) :
    ∀ t ∈ d.transitions, ∃ line ∈ lines, Transition.parse? line = some t := by
  intro t ht
  obtain ⟨hlength, hparse⟩ := List.forall₂_iff_get.mp (forall₂_parse_of_ofLines h)
  obtain ⟨i, hi, rfl⟩ := List.mem_iff_getElem.mp ht
  exact ⟨lines[i], List.getElem_mem _, hparse i (hlength ▸ hi) hi⟩

theorem wellFormed_of_ofLines {lines accepting : List String} {d : Definition}
    (h : ofLines lines accepting = .ok d) : ∀ t ∈ d.transitions, t.WellFormed := by
  intro t ht
  obtain ⟨line, -, hparse⟩ := exists_line_of_ofLines h t ht
  exact Transition.wellFormed_of_parse? hparse

theorem direction_of_ofLines {lines accepting : List String} {d : Definition}
    (h : ofLines lines accepting = .ok d) :
    ∀ t ∈ d.transitions, t.direction = .left ∨ t.direction = .right := by
  intro t ht
  obtain ⟨line, -, hparse⟩ := exists_line_of_ofLines h t ht
  exact Transition.direction_of_parse? hparse

/-- Without a line there is no transition. -/
theorem ofLines_eq_noTransition_iff (lines accepting : List String) :
    ofLines lines accepting = .error .noTransition ↔ lines = [] := by
  cases lines with
  | nil => exact iff_of_true rfl rfl
  | cons line lines =>
      rw [ofLines, List.mapM_cons]
      cases Transition.parse line with
      | error e => exact iff_of_false nofun nofun
      | ok t =>
          cases lines.mapM Transition.parse with
          | error e => exact iff_of_false nofun nofun
          | ok ts => exact iff_of_false nofun nofun

/-- Only the empty text is refused for holding no transition. -/
theorem ofText_eq_noTransition_iff (text : String) (accepting : List String) :
    ofText text accepting = .error .noTransition ↔ text = "" := by
  rw [ofText, ofLines_eq_noTransition_iff, lines_eq_nil_iff]

variable {d : Definition}

theorem next_mem {t : Transition} (h : t ∈ d.transitions) : t.next ∈ d.states := by
  rw [states, mem_firstSeen, List.mem_flatMap]
  exact ⟨t, h, by simp⟩

theorem symbol_mem {t : Transition} (h : t ∈ d.transitions) : t.symbol ∈ d.symbols := by
  rw [symbols, mem_firstSeen, List.mem_flatMap]
  exact ⟨t, h, by simp⟩

theorem written_mem {t : Transition} (h : t ∈ d.transitions) : t.written ∈ d.symbols := by
  rw [symbols, mem_firstSeen, List.mem_flatMap]
  exact ⟨t, h, by simp⟩

theorem initialState_mem (d : Definition) : d.initialState ∈ d.states := by
  rw [states, mem_firstSeen, List.mem_flatMap]
  exact ⟨_, List.head_mem d.transitions_ne_nil, by simp [initialState]⟩

theorem isState_of_mem (hd : ∀ t ∈ d.transitions, t.WellFormed) {s : String}
    (h : s ∈ d.states) : IsState s := by
  rw [states, mem_firstSeen, List.mem_flatMap] at h
  obtain ⟨t, ht, hs⟩ := h
  rcases List.mem_pair.mp hs with rfl | rfl
  · exact (hd t ht).state
  · exact (hd t ht).next

theorem isSymbol_of_mem (hd : ∀ t ∈ d.transitions, t.WellFormed) {s : String}
    (h : s ∈ d.symbols) : IsSymbol s := by
  rw [symbols, mem_firstSeen, List.mem_flatMap] at h
  obtain ⟨t, ht, hs⟩ := h
  rcases List.mem_pair.mp hs with rfl | rfl
  · exact (hd t ht).symbol
  · exact (hd t ht).written

theorem toList_listing (d : Definition) :
    d.listing.toList =
      d.states.flatMap String.toList ++ ':' :: d.symbols.flatMap String.toList := by
  change (String.join d.states ++ ":" ++ String.join d.symbols).toList = _
  simp [String.toList_join]

theorem headMark_not_mem_listing (hd : ∀ t ∈ d.transitions, t.WellFormed) :
    headMark ∉ d.listing.toList := by
  rw [toList_listing, List.mem_append, List.mem_cons, List.mem_flatMap, List.mem_flatMap]
  rintro (⟨s, hs, hmem⟩ | hcolon | ⟨s, hs, hmem⟩)
  · exact (isState_of_mem hd hs).headMark_not_mem hmem
  · cases hcolon
  · exact (isSymbol_of_mem hd hs).headMark_not_mem hmem

end Definition

end SubstitutionAutomata
