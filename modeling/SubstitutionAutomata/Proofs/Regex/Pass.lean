import SubstitutionAutomata.Regex.Substitution
import Mathlib.Data.List.Basic

/-! # Passes of replacements

Where nothing matches the pass keeps the text, and a match that takes text is replaced as a whole.
If every match takes one character, the pass replaces the characters one by one. -/

namespace SubstitutionAutomata.Regex

variable {r : Regex} {template : Template} {text : Array Char}

theorem substituteFrom_cons_of_none (c : Char) (rest : List Char) (p : ℕ)
    (h : r.matchAt text p = none) :
    substituteFrom r template text (c :: rest) p 0 =
      (substituteFrom r template text rest (p + 1) 0).keep c := by
  simp only [substituteFrom, h]

theorem substituteFrom_cons_of_some (c : Char) (rest : List Char) (p : ℕ) (m : Match)
    (h : r.matchAt text p = some m) (hstop : p < m.stop) :
    substituteFrom r template text (c :: rest) p 0 =
      Replaced.insert (template.expand text p m)
        (substituteFrom r template text rest (p + 1) (m.stop - p - 1)) := by
  simp only [substituteFrom, h, if_pos hstop]

theorem substituteFrom_nil_of_none (p : ℕ) (h : r.matchAt text p = none) :
    substituteFrom r template text [] p 0 = ([], 0) := by
  simp only [substituteFrom, h]

/-- The rest of a match is passed over. -/
theorem substituteFrom_append_skip (taken rest : List Char) (p : ℕ) :
    substituteFrom r template text (taken ++ rest) p taken.length =
      substituteFrom r template text rest (p + taken.length) 0 := by
  induction taken generalizing p with
  | nil => rfl
  | cons c taken ih =>
      rw [List.cons_append, List.length_cons, substituteFrom, ih, Nat.add_right_comm,
        ← Nat.add_assoc]

theorem substituteFrom_append_of_none (before rest : List Char) (p : ℕ)
    (h : ∀ q, p ≤ q → q < p + before.length → r.matchAt text q = none) :
    substituteFrom r template text (before ++ rest) p 0 =
      (before ++ (substituteFrom r template text rest (p + before.length) 0).1,
        (substituteFrom r template text rest (p + before.length) 0).2) := by
  induction before generalizing p with
  | nil => rfl
  | cons c before ih =>
      have hp : r.matchAt text p = none := h p (Nat.le_refl p) (by simp)
      rw [List.cons_append, substituteFrom_cons_of_none c _ p hp, ih (p + 1)]
      · simp only [Replaced.keep, List.length_cons, List.cons_append, Nat.add_assoc,
          Nat.add_comm 1]
      · intro q hq hlt
        exact h q (by omega) (by simp only [List.length_cons]; omega)

theorem substituteFrom_of_none (rest : List Char) (p : ℕ)
    (h : ∀ q, p ≤ q → q ≤ p + rest.length → r.matchAt text q = none) :
    substituteFrom r template text rest p 0 = (rest, 0) := by
  have hsplit := @substituteFrom_append_of_none r template text rest [] p
    fun q hq hlt => h q hq (Nat.le_of_lt hlt)
  have hlast := h (p + rest.length) (Nat.le_add_right ..) (Nat.le_refl _)
  rw [List.append_nil, substituteFrom_nil_of_none _ hlast] at hsplit
  simpa using hsplit

/-- If the only match takes `taken` from the text after `before`, that is what is replaced. -/
theorem substituteFrom_single (before taken rest : List Char) (m : Match)
    (hne : taken ≠ []) (hm : r.matchAt text before.length = some m)
    (hstop : m.stop = before.length + taken.length)
    (hbefore : ∀ q < before.length, r.matchAt text q = none)
    (hrest : ∀ q, m.stop ≤ q → q ≤ m.stop + rest.length → r.matchAt text q = none) :
    substituteFrom r template text (before ++ (taken ++ rest)) 0 0 =
      (before ++ (template.expand text before.length m ++ rest), 1) := by
  obtain ⟨c, taken, rfl⟩ := List.exists_cons_of_ne_nil hne
  have hlt : before.length < m.stop := by simp [hstop]
  have hskip : m.stop - before.length - 1 = taken.length := by
    simp only [hstop, List.length_cons]
    omega
  have hend : before.length + 1 + taken.length = m.stop := by
    simp only [hstop, List.length_cons]
    omega
  rw [substituteFrom_append_of_none before _ 0 (fun q _ hq => hbefore q (by omega)), Nat.zero_add,
    List.cons_append, substituteFrom_cons_of_some c _ _ m hm hlt, hskip,
    substituteFrom_append_skip, hend, substituteFrom_of_none rest _ hrest]
  rfl

/-- If every match takes one character, the matched characters are replaced and all others kept.
-/
theorem substituteFrom_pointwise (P : ℕ → Prop) [DecidablePred P] (image : ℕ → Char)
    (hmatch : ∀ q, P q → ∃ m, r.matchAt text q = some m ∧ m.stop = q + 1 ∧
      template.expand text q m = [image q])
    (hnone : ∀ q, ¬ P q → r.matchAt text q = none)
    (rest : List Char) (p : ℕ) (hend : ¬ P (p + rest.length)) :
    substituteFrom r template text rest p 0 =
      (rest.mapIdx fun i c => if P (p + i) then image (p + i) else c,
        (List.range' p rest.length).countP fun q => P q) := by
  induction rest generalizing p with
  | nil => exact substituteFrom_nil_of_none p (hnone p hend)
  | cons c rest ih =>
      have hrest := ih (p + 1) (by
        rwa [Nat.add_right_comm, Nat.add_assoc])
      rw [List.length_cons, List.range'_succ, List.countP_cons, List.mapIdx_cons]
      by_cases hp : P p
      · obtain ⟨m, hm, hstop, hexpand⟩ := hmatch p hp
        rw [substituteFrom_cons_of_some c rest p m hm (by omega), hexpand, hstop,
          Nat.add_sub_cancel_left, Nat.sub_self, hrest]
        simp [Replaced.insert, hp, Nat.add_assoc, Nat.add_comm 1]
      · rw [substituteFrom_cons_of_none c rest p (hnone p hp), hrest]
        simp [Replaced.keep, hp, Nat.add_assoc, Nat.add_comm 1]

end SubstitutionAutomata.Regex
