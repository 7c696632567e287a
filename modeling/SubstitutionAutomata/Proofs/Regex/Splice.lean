import SubstitutionAutomata.Regex.Substitution
import Mathlib.Data.List.Basic
import Mathlib.Data.Nat.Notation

/-! # A pass as its matches

A pass puts the expansion of its template in the place of each of its matches, and keeps the text
between them. -/

namespace SubstitutionAutomata.Regex

variable {r : Regex} {template : Template} {text : Array Char} {p : ℕ} {m : Match}

/-! ## Where a match stops -/

theorem exists_attempt_of_firstOnLine {attempt : ℕ → Option Match} {fuel : ℕ}
    (h : firstOnLine text attempt p fuel = some m) : ∃ q, p ≤ q ∧ attempt q = some m := by
  induction fuel generalizing p with
  | zero => exact ⟨p, Nat.le_refl p, h⟩
  | succ fuel ih =>
      rw [firstOnLine] at h
      cases hnow : attempt p with
      | some m' =>
          rw [hnow] at h
          exact ⟨p, Nat.le_refl p, hnow.trans h⟩
      | none =>
          simp only [hnow] at h
          split at h
          · split at h
            · cases h
            · obtain ⟨q, hq, hattempt⟩ := ih h
              exact ⟨q, Nat.le_of_succ_le hq, hattempt⟩
          · cases h

/-- What follows a part of a match follows at the place where the part starts or behind it. -/
theorem exists_next_of_run {cs : Captures} {next : ℕ → Captures → Option Match}
    (h : r.run text p cs next = some m) : ∃ q cs', p ≤ q ∧ next q cs' = some m := by
  induction r generalizing p cs next m with
  | empty => exact ⟨p, cs, Nat.le_refl p, h⟩
  | char _ | any | anyTimes _ =>
      rw [run] at h
      split at h
      · exact ⟨_, cs, Nat.le_add_right p _, h⟩
      · cases h
  | word =>
      rw [run] at h
      split at h
      · split at h
        · exact ⟨p + 1, cs, Nat.le_succ p, h⟩
        · cases h
      · cases h
  | lazyAny =>
      rw [run] at h
      obtain ⟨q, hq, hnext⟩ := exists_attempt_of_firstOnLine h
      exact ⟨q, cs, hq, hnext⟩
  | seq first rest ihfirst ihrest =>
      rw [run] at h
      obtain ⟨q, cs', hq, hrest⟩ := ihfirst h
      obtain ⟨q', cs'', hq', hnext⟩ := ihrest hrest
      exact ⟨q', cs'', Nat.le_trans hq hq', hnext⟩
  | alt first second ihfirst ihsecond =>
      rw [run] at h
      split at h
      · rename_i m' hfirst
        exact ihfirst (hfirst.trans h)
      · exact ihsecond h
  | group body ih => exact ih h
  | capture name body ih =>
      rw [run] at h
      obtain ⟨q, cs', hq, hnext⟩ := ih h
      exact ⟨q, _, hq, hnext⟩
  | behind width body ih =>
      rw [run] at h
      split at h
      · split at h
        · exact ⟨p, _, Nat.le_refl p, h⟩
        · cases h
      · cases h
  | ahead body ih =>
      rw [run] at h
      split at h
      · exact ⟨p, _, Nat.le_refl p, h⟩
      · cases h
  | notAhead body ih =>
      rw [run] at h
      split at h
      · cases h
      · exact ⟨p, _, Nat.le_refl p, h⟩

theorem le_stop_of_matchAt (h : r.matchAt text p = some m) : p ≤ m.stop := by
  obtain ⟨q, cs, hq, hm⟩ := exists_next_of_run h
  cases hm
  exact hq

theorem lt_stop_of_nonemptyMatchAt (h : r.nonemptyMatchAt text p = some m) : p < m.stop := by
  obtain ⟨q, cs, hq, hm⟩ := exists_next_of_run h
  split at hm
  · cases hm
  · rename_i hne
    cases hm
    exact Nat.lt_of_le_of_ne hq (Ne.symm hne)

/-! ## The matches of a pass -/

/-- The matches of a pass from position `p` on, each with its position, where `rest` is the text
there and its first `skip` characters belong to the latest match. -/
def matchesFrom (r : Regex) (text : Array Char) : List Char → ℕ → ℕ → List (ℕ × Match)
  | _ :: rest, p, skip + 1 => matchesFrom r text rest (p + 1) skip
  | [], p, _ => ((r.matchAt text p).map fun m => (p, m)).toList
  | _ :: rest, p, 0 =>
    match r.matchAt text p with
    | none => matchesFrom r text rest (p + 1) 0
    | some m =>
      (p, m) ::
        if p < m.stop then matchesFrom r text rest (p + 1) (m.stop - p - 1)
        else match r.nonemptyMatchAt text p with
          | none => matchesFrom r text rest (p + 1) 0
          | some m => (p, m) :: matchesFrom r text rest (p + 1) (m.stop - p - 1)

def allMatches (r : Regex) (s : String) : List (ℕ × Match) :=
  matchesFrom r s.toList.toArray s.toList 0 0

/-- The matches of a pass do not stand before its start. -/
theorem le_of_mem_matchesFrom {rest : List Char} {skip q : ℕ}
    (h : (q, m) ∈ matchesFrom r text rest p skip) : p ≤ q ∧ q ≤ m.stop := by
  induction rest generalizing p skip with
  | nil =>
      rw [matchesFrom, Option.mem_toList, Option.map_eq_some_iff] at h
      obtain ⟨m', hm, he⟩ := h
      cases he
      exact ⟨Nat.le_refl _, le_stop_of_matchAt hm⟩
  | cons c rest ih =>
      have hlater : ∀ {skip : ℕ}, (q, m) ∈ matchesFrom r text rest (p + 1) skip →
          p ≤ q ∧ q ≤ m.stop := fun h => (ih h).imp_left Nat.le_of_succ_le
      cases skip with
      | succ skip => exact hlater h
      | zero =>
          rw [matchesFrom] at h
          cases hm : r.matchAt text p with
          | none =>
              rw [hm] at h
              exact hlater h
          | some first =>
              simp only [hm, List.mem_cons] at h
              rcases h with he | h
              · cases he
                exact ⟨Nat.le_refl _, le_stop_of_matchAt hm⟩
              · split at h
                · exact hlater h
                · cases hnonempty : r.nonemptyMatchAt text p with
                  | none =>
                      rw [hnonempty] at h
                      exact hlater h
                  | some second =>
                      simp only [hnonempty, List.mem_cons] at h
                      rcases h with he | h
                      · cases he
                        exact ⟨Nat.le_refl _, Nat.le_of_lt (lt_stop_of_nonemptyMatchAt hnonempty)⟩
                      · exact hlater h

/-- The text `rest` from position `p` on, with an image in the place of each match. -/
def splice (image : ℕ → Match → List Char) : List Char → ℕ → List (ℕ × Match) → List Char
  | rest, _, [] => rest
  | rest, p, (q, m) :: later =>
    rest.take (q - p) ++ image q m ++ splice image (rest.drop (m.stop - p)) m.stop later

/-- Behind a character that belongs to no match. -/
theorem splice_cons {image : ℕ → Match → List Char} {c : Char} {rest : List Char}
    {found : List (ℕ × Match)} (h : ∀ q m, (q, m) ∈ found → p + 1 ≤ q ∧ q ≤ m.stop) :
    splice image (c :: rest) p found = c :: splice image rest (p + 1) found := by
  cases found with
  | nil => rfl
  | cons first later =>
      obtain ⟨q, m⟩ := first
      obtain ⟨hq, hstop⟩ := h q m List.mem_cons_self
      have htake : q - p = q - (p + 1) + 1 := by omega
      have hdrop : m.stop - p = m.stop - (p + 1) + 1 := by omega
      simp only [splice, htake, hdrop, List.take_succ_cons, List.drop_succ_cons, List.cons_append]

/-- Behind a match that takes a character. -/
theorem splice_match {image : ℕ → Match → List Char} {c : Char} {rest : List Char}
    {found : List (ℕ × Match)} (h : p < m.stop) :
    splice image (c :: rest) p ((p, m) :: found) =
      image p m ++ splice image (rest.drop (m.stop - p - 1)) (p + 1 + (m.stop - p - 1)) found := by
  have hdrop : m.stop - p = m.stop - p - 1 + 1 := by omega
  have hstop : m.stop = p + 1 + (m.stop - p - 1) := by omega
  rw [splice, Nat.sub_self, List.take_zero, List.nil_append, ← hstop]
  conv_lhs => rw [hdrop, List.drop_succ_cons]

/-- Behind an empty match. -/
theorem splice_empty {image : ℕ → Match → List Char} {rest : List Char}
    {found : List (ℕ × Match)} (h : m.stop = p) :
    splice image rest p ((p, m) :: found) = image p m ++ splice image rest p found := by
  rw [splice, h, Nat.sub_self, List.take_zero, List.nil_append, List.drop_zero]

theorem substituteFrom_eq_splice (rest : List Char) (p skip : ℕ) :
    substituteFrom r template text rest p skip =
      (splice (template.expand text) (rest.drop skip) (p + skip) (matchesFrom r text rest p skip),
        (matchesFrom r text rest p skip).length) := by
  induction rest generalizing p skip with
  | nil =>
      rw [substituteFrom, matchesFrom]
      cases r.matchAt text p with
      | none => simp [splice]
      | some m => simp [splice, Replaced.insert]
  | cons c rest ih =>
      have hkeep : (substituteFrom r template text rest (p + 1) 0).keep c =
          (splice (template.expand text) (c :: rest) p (matchesFrom r text rest (p + 1) 0),
            (matchesFrom r text rest (p + 1) 0).length) := by
        rw [ih, splice_cons fun q m h => le_of_mem_matchesFrom h]
        rfl
      have hskip : ∀ m : Match, p < m.stop →
          Replaced.insert (template.expand text p m)
              (substituteFrom r template text rest (p + 1) (m.stop - p - 1)) =
            (splice (template.expand text) (c :: rest) p
                ((p, m) :: matchesFrom r text rest (p + 1) (m.stop - p - 1)),
              (matchesFrom r text rest (p + 1) (m.stop - p - 1)).length + 1) := by
        intro m hm
        rw [ih, splice_match hm]
        rfl
      cases skip with
      | succ skip =>
          rw [substituteFrom, matchesFrom, ih, List.drop_succ_cons, Nat.add_right_comm,
            Nat.add_assoc]
      | zero =>
          rw [substituteFrom, matchesFrom]
          cases hm : r.matchAt text p with
          | none => exact hkeep
          | some m =>
              dsimp only
              by_cases hstop : p < m.stop
              · rw [if_pos hstop, if_pos hstop]
                exact hskip m hstop
              · rw [if_neg hstop, if_neg hstop]
                have hempty : m.stop = p :=
                  Nat.le_antisymm (Nat.le_of_not_lt hstop) (le_stop_of_matchAt hm)
                cases hnonempty : r.nonemptyMatchAt text p with
                | none =>
                    dsimp only
                    rw [hkeep]
                    simp [Replaced.insert, splice_empty hempty]
                | some m' =>
                    dsimp only
                    rw [hskip m' (lt_stop_of_nonemptyMatchAt hnonempty)]
                    simp [Replaced.insert, splice_empty hempty]

/-- A pass puts the expansion of its template in the place of each of its matches, and counts them.
-/
theorem substitute_eq_splice (r : Regex) (template : Template) (s : String) :
    r.substitute template s =
      (String.ofList (splice (template.expand s.toList.toArray) s.toList 0 (r.allMatches s)),
        (r.allMatches s).length) := by
  rw [substitute, substituteFrom_eq_splice, allMatches]
  rfl

end SubstitutionAutomata.Regex
