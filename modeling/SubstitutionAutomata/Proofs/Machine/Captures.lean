import SubstitutionAutomata.Machine.Clause
import SubstitutionAutomata.Proofs.Regex.Names
import Mathlib.Data.List.Nodup

/-! # Names of captures

A capture of a machine's clause is named for what it holds and for the number of the clause. The
names of all clauses differ. -/

namespace SubstitutionAutomata

open Regex

/-- How the names of captures start. -/
def captureStarts : List String := ["new_state_", "new_cursor_", "new_left_", "new_right_"]

theorem captureStart_eq_of_getElem? :
    ∀ start ∈ captureStarts, ∀ start' ∈ captureStarts,
      start.toList[4]? = start'.toList[4]? → start = start' := by decide

theorem four_lt_of_mem_captureStarts : ∀ start ∈ captureStarts, 4 < start.toList.length := by
  decide

theorem isCaptureName_captureStarts : ∀ start ∈ captureStarts, IsCaptureName start := by decide

section Numbered

variable {start start' : String}

theorem getElem?_numbered (hs : start ∈ captureStarts) (i : ℕ) :
    (start ++ toString i).toList[4]? = start.toList[4]? := by
  rw [String.toList_append, List.getElem?_append_left (four_lt_of_mem_captureStarts start hs)]

theorem numbered_eq_iff (hs : start ∈ captureStarts) (hs' : start' ∈ captureStarts) (i j : ℕ) :
    start ++ toString i = start' ++ toString j ↔ start = start' ∧ i = j := by
  constructor
  · intro h
    have hchar := congrArg (fun s : String => s.toList[4]?) h
    simp only [getElem?_numbered hs, getElem?_numbered hs'] at hchar
    obtain rfl := captureStart_eq_of_getElem? start hs start' hs' hchar
    exact ⟨rfl, (Template.numbered_inj start i j).mp h⟩
  · rintro ⟨rfl, rfl⟩
    rfl

theorem startsWith_numbered (hs : start ∈ captureStarts) (hs' : start' ∈ captureStarts) (i : ℕ) :
    (start ++ toString i).startsWith start' = decide (start = start') := by
  rw [Bool.eq_iff_iff, decide_eq_true_eq, String.startsWith_string_iff]
  constructor
  · intro h
    have hlt := four_lt_of_mem_captureStarts start' hs'
    have hchar := h.getElem hlt
    apply captureStart_eq_of_getElem? start hs start' hs'
    rw [← getElem?_numbered hs i, List.getElem?_eq_getElem hlt, hchar]
    exact List.getElem?_eq_getElem _
  · rintro rfl
    rw [String.toList_append]
    exact List.prefix_append ..

theorem isCaptureName_numbered_of_mem (hs : start ∈ captureStarts) (i : ℕ) :
    IsCaptureName (start ++ toString i) :=
  isCaptureName_numbered (isCaptureName_captureStarts start hs) i

end Numbered

namespace Transition

variable (t : Transition) (i : ℕ)

/-- How the name of the written symbol's capture starts. -/
def writtenStart : String := if t.direction = .right then "new_left_" else "new_right_"

theorem stateStart_mem : "new_state_" ∈ captureStarts := by decide

theorem cursorStart_mem : "new_cursor_" ∈ captureStarts := by decide

theorem writtenStart_mem : t.writtenStart ∈ captureStarts := by
  rw [writtenStart]
  split <;> decide

theorem stateCapture_eq : stateCapture i = "new_state_" ++ toString i := rfl

theorem cursorCapture_eq : cursorCapture i = "new_cursor_" ++ toString i := rfl

theorem writtenCapture_eq : t.writtenCapture i = t.writtenStart ++ toString i := by
  rw [writtenCapture, writtenStart]
  split <;> rfl

/-- The captures of a clause. -/
def captureNames : List String := [stateCapture i, t.writtenCapture i, cursorCapture i]

theorem exists_start_of_mem_captureNames {name : String} (h : name ∈ t.captureNames i) :
    ∃ start ∈ captureStarts, name = start ++ toString i := by
  simp only [captureNames, List.mem_cons, List.not_mem_nil, or_false] at h
  rcases h with rfl | rfl | rfl
  · exact ⟨_, stateStart_mem, rfl⟩
  · exact ⟨_, t.writtenStart_mem, t.writtenCapture_eq i⟩
  · exact ⟨_, cursorStart_mem, rfl⟩

theorem writtenStart_ne : t.writtenStart ≠ "new_state_" ∧ t.writtenStart ≠ "new_cursor_" := by
  rw [writtenStart]
  split <;> decide

theorem nodup_captureNames : (t.captureNames i).Nodup := by
  obtain ⟨hstate, hcursor⟩ := t.writtenStart_ne
  simp only [captureNames, stateCapture_eq, cursorCapture_eq, writtenCapture_eq,
    List.nodup_cons, List.mem_cons, List.not_mem_nil, or_false, not_or, List.nodup_nil, and_true,
    not_false_eq_true, numbered_eq_iff stateStart_mem cursorStart_mem,
    numbered_eq_iff stateStart_mem t.writtenStart_mem,
    numbered_eq_iff t.writtenStart_mem cursorStart_mem]
  refine ⟨⟨hstate.symm, by decide⟩, hcursor⟩

theorem mem_captureNames_iff {start : String} (hs : start ∈ captureStarts) :
    start ++ toString i ∈ t.captureNames i ↔
      start = "new_state_" ∨ start = t.writtenStart ∨ start = "new_cursor_" := by
  simp only [captureNames, stateCapture_eq, cursorCapture_eq, writtenCapture_eq, List.mem_cons,
    List.not_mem_nil, or_false, numbered_eq_iff hs stateStart_mem,
    numbered_eq_iff hs cursorStart_mem, numbered_eq_iff hs t.writtenStart_mem, and_true]

end Transition

end SubstitutionAutomata
