import SubstitutionAutomata.Regex.Match
import Mathlib.Data.List.Basic

/-! # Matching of sequences, choices and fixed text

A sequence hands every match of its first item on to the rest, and a choice takes the first
alternative that leads to a match. Fixed text matches where the text begins with it. -/

namespace SubstitutionAutomata.Regex

open Text

/-! ## Prefixes at a position -/

theorem cons_prefix_drop_iff (c : Char) (s l : List Char) (p : ℕ) :
    c :: s <+: l.drop p ↔ l[p]? = some c ∧ s <+: l.drop (p + 1) := by
  rw [List.drop_eq_getElem?_toList_append]
  cases h : l[p]? with
  | none =>
      have hlen : l.length ≤ p := List.getElem?_eq_none_iff.mp h
      simp [List.drop_eq_nil_of_le (Nat.le_succ_of_le hlen)]
  | some d => simp [List.cons_prefix_cons, eq_comm]

theorem append_prefix_drop_iff (s t l : List Char) (p : ℕ) :
    s ++ t <+: l.drop p ↔ s <+: l.drop p ∧ t <+: l.drop (p + s.length) := by
  induction s generalizing p with
  | nil => simp
  | cons c s ih =>
      simp only [List.cons_append, cons_prefix_drop_iff, ih, List.length_cons, and_assoc,
        Nat.add_assoc, Nat.add_comm 1]

theorem extract_of_prefix_drop (s : List Char) (text : Array Char) (p : ℕ)
    (h : s <+: text.toList.drop p) : (text.extract p (p + s.length)).toList = s := by
  rw [Array.toList_extract, List.extract_eq_take_drop, Nat.add_sub_cancel_left]
  exact (List.prefix_iff_eq_take.mp h).symm

/-! ## Sequences and choices -/

variable (text : Array Char) (p : ℕ) (cs : Captures) (next : ℕ → Captures → Option Match)

theorem run_concat_cons (r : Regex) (rs : List Regex) :
    run text (concat (r :: rs)) p cs next =
      run text r p cs fun q cs => run text (concat rs) q cs next := by
  cases rs with
  | nil => simp only [concat, run]
  | cons s rs => rfl

theorem run_concat_append (rs ss : List Regex) :
    run text (concat (rs ++ ss)) p cs next =
      run text (concat rs) p cs fun q cs => run text (concat ss) q cs next := by
  induction rs generalizing p cs with
  | nil => simp [concat, run]
  | cons r rs ih => simp only [List.cons_append, run_concat_cons, ih]

theorem run_choice (rs : List Regex) :
    run text (choice rs) p cs next = rs.findSome? fun r => run text r p cs next := by
  induction rs with
  | nil => simp [choice, run]
  | cons r rs ih =>
      cases rs with
      | nil => cases h : run text r p cs next <;> simp [choice, h]
      | cons s rs =>
          rw [List.findSome?_cons, ← ih, choice, run]
          · cases run text r p cs next <;> rfl
          · simp

theorem run_literal (s : List Char) :
    run text (literal s) p cs next =
      if s <+: text.toList.drop p then next (p + s.length) cs else none := by
  induction s generalizing p with
  | nil => simp [literal, concat, run]
  | cons c s ih =>
      rw [literal] at ih ⊢
      rw [List.map_cons, run_concat_cons]
      simp only [run, ih, cons_prefix_drop_iff, Array.getElem?_toList, List.length_cons]
      rw [Nat.add_right_comm p 1, Nat.add_assoc p]
      by_cases hc : text[p]? = some c <;> simp [hc]

/-! ## Positions of one line -/

theorem lineHolds_iff (count : ℕ) (h : p + count ≤ text.size) :
    lineHolds text p count = true ↔ '\n' ∉ text.toList.extract p (p + count) := by
  rw [List.extract_eq_take_drop, Nat.add_sub_cancel_left]
  induction count generalizing p with
  | zero => simp [lineHolds]
  | succ count ih =>
      have hp : p < text.size := by omega
      have hdrop : text.toList.drop p = text[p] :: text.toList.drop (p + 1) := by
        rw [List.drop_eq_getElem_cons (by simpa using hp), Array.getElem_toList]
      rw [hdrop, List.take_succ_cons, List.mem_cons, lineHolds, Array.getElem?_eq_getElem hp]
      simp only [Bool.and_eq_true, bne_iff_ne, ne_eq, ih (p + 1) (by omega), not_or]
      rw [eq_comm]

theorem lineHolds_iff_of_getElem? (count : ℕ) {c : Char} (h : text[p + count]? = some c) :
    lineHolds text p count = true ↔ '\n' ∉ text.toList.extract p (p + count) := by
  obtain ⟨hlt, -⟩ := Array.getElem?_eq_some_iff.mp h
  exact lineHolds_iff text p count (Nat.le_of_lt hlt)

section Scan

variable (c : Char) (found : ℕ → Match)

/-- A lazy scan stops at the first place where `c` stands. -/
def scanFor (q : ℕ) : Option Match := if text[q]? = some c then some (found q) else none

theorem scanFor_of_ne {q : ℕ} (h : text[q]? ≠ some c) : scanFor text c found q = none := if_neg h

theorem scanFor_of_eq {q : ℕ} (h : text[q]? = some c) : scanFor text c found q = some (found q) :=
  if_pos h

theorem drop_of_getElem?_eq_some {d : Char} (h : text[p]? = some d) :
    text.toList.drop p = d :: text.toList.drop (p + 1) := by
  rw [List.drop_eq_getElem?_toList_append, Array.getElem?_toList, h]
  rfl

theorem firstOnLine_of_not_mem (fuel : ℕ) (hc : c ≠ '\n')
    (h : c ∉ (text.toList.drop p).takeWhile (· ≠ '\n')) :
    firstOnLine text (scanFor text c found) p fuel = none := by
  have hp : text[p]? ≠ some c := by
    intro hp
    rw [drop_of_getElem?_eq_some text p hp] at h
    simp [hc] at h
  induction fuel generalizing p with
  | zero => exact scanFor_of_ne text c found hp
  | succ fuel ih =>
      rw [firstOnLine, scanFor_of_ne text c found hp]
      cases hd : text[p]? with
      | none => rfl
      | some d =>
          by_cases hn : d = '\n'
          · simp [hn]
          · rw [drop_of_getElem?_eq_some text p hd] at h
            simp only [hn, if_false]
            have hmore : c ∉ (text.toList.drop (p + 1)).takeWhile (· ≠ '\n') := by
              simp_all
            apply ih (p + 1) hmore
            intro hp
            rw [drop_of_getElem?_eq_some text (p + 1) hp] at hmore
            simp [hc] at hmore

theorem firstOnLine_of_mem (fuel : ℕ) (hfuel : text.size ≤ p + fuel)
    (h : c ∈ (text.toList.drop p).takeWhile (· ≠ '\n')) :
    ∃ q, text[q]? = some c ∧ firstOnLine text (scanFor text c found) p fuel = some (found q) := by
  induction fuel generalizing p with
  | zero => simp [List.drop_eq_nil_of_le (show text.toList.length ≤ p by simpa using hfuel)] at h
  | succ fuel ih =>
      by_cases hp : text[p]? = some c
      · exact ⟨p, hp, by rw [firstOnLine, scanFor_of_eq text c found hp]⟩
      · rw [firstOnLine, scanFor_of_ne text c found hp]
        cases hd : text[p]? with
        | none =>
            have hlen : text.toList.length ≤ p := by simpa using hd
            simp [List.drop_eq_nil_of_le hlen] at h
        | some d =>
            rw [drop_of_getElem?_eq_some text p hd] at h
            by_cases hn : d = '\n'
            · simp [hn] at h
            · have hne : c ≠ d := fun he => hp (he ▸ hd)
              simp only [hn, if_false]
              exact ih (p + 1) (by omega) (by simpa [hn, hne] using h)

end Scan

/-! ## Captured text -/

namespace Captures

/-- Whether every capture of a name spans the same text, and there is one. -/
def Holds (cs : Captures) (text : Array Char) (name : String) (s : List Char) : Prop :=
  (∃ span, (name, span) ∈ cs) ∧
    ∀ span, (name, span) ∈ cs → (text.extract span.1 span.2).toList = s

theorem lookup_mem (cs : Captures) (name : String) (span : ℕ × ℕ)
    (h : cs.lookup name = some span) : (name, span) ∈ cs := by
  obtain ⟨before, after, rfl, -⟩ := List.lookup_eq_some_iff.mp h
  simp

end Captures

theorem Match.captured_of_holds (m : Match) (name : String) (s : List Char)
    (h : m.captures.Holds text name s) : m.captured text name = s := by
  obtain ⟨⟨span, hmem⟩, hall⟩ := h
  cases hl : m.captures.lookup name with
  | none => exact absurd (List.lookup_eq_none_iff.mp hl _ hmem) (by simp)
  | some found =>
      rw [Match.captured, hl]
      exact hall found (m.captures.lookup_mem name found hl)

theorem Match.captured_of_forall_ne (m : Match) (name : String)
    (h : ∀ span, (name, span) ∉ m.captures) : m.captured text name = [] := by
  cases hl : m.captures.lookup name with
  | none => rw [Match.captured, hl]
  | some found => exact absurd (m.captures.lookup_mem name found hl) (h found)

end SubstitutionAutomata.Regex
