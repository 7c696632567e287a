import SubstitutionAutomata.Machine.Tape
import SubstitutionAutomata.Proofs.Machine.Clause

/-! # The head record of a buffer

A buffer that shows a configuration holds one head record. The text of a clause stands in it only at
that record, so the clause's transition is one for the configuration's state and symbol. -/

namespace SubstitutionAutomata

open Regex

/-! ## Separated text -/

section Separated

variable {α : Type} {sep : α}

theorem append_cons_prefix_iff (a b u v : List α) (ha : sep ∉ a) (hb : sep ∉ b) :
    a ++ sep :: u <+: b ++ sep :: v ↔ a = b ∧ u <+: v := by
  induction a generalizing b with
  | nil =>
      cases b with
      | nil => simp
      | cons y b =>
          have hne : sep ≠ y := fun he => hb (by simp [he])
          simp [hne]
  | cons x a ih =>
      cases b with
      | nil =>
          have hne : x ≠ sep := fun he => ha (by simp [he])
          simp [hne]
      | cons y b =>
          have ha' : sep ∉ a := fun h => ha (List.mem_cons_of_mem x h)
          have hb' : sep ∉ b := fun h => hb (List.mem_cons_of_mem y h)
          rw [List.cons_append, List.cons_append, List.cons_prefix_cons, ih b ha' hb',
            List.cons.injEq, and_assoc]

/-- Text that starts with a separator does not start inside text without one. -/
theorem length_le_of_prefix_drop {before after u : List α} {q : ℕ} (hbefore : sep ∉ before)
    (h : sep :: u <+: (before ++ after).drop q) : before.length ≤ q := by
  by_contra hlt
  rw [List.drop_append_of_le_length (by omega)] at h
  have hdrop : before.drop q = before[q] :: before.drop (q + 1) :=
    List.drop_eq_getElem_cons (by omega)
  rw [hdrop, List.cons_append, List.cons_prefix_cons] at h
  exact hbefore (h.1 ▸ List.getElem_mem _)

end Separated

/-! ## The buffer of a configuration -/

namespace Configuration

/-- The characters of the buffer that shows a configuration. -/
def text (d : Definition) (c : Configuration) : List Char :=
  c.left.toList ++ (recordText d c.state.toList c.cursor.toList ++ c.right.toList)

theorem toList_encodeHead (tape : Tape) (c : Configuration) :
    (tape.encodeHead c).toList = c.text tape.definition := by
  change (c.left ++ (headMark.toString ++ tape.definition.listing ++ "-") ++ c.state ++ ":" ++
    c.cursor ++ headMark.toString ++ c.right).toList = _
  simp [text, recordText, Char.toString]

/-- No head mark stands on the tape, and the head is in a written state on one character. -/
structure WellFormed (c : Configuration) : Prop where
  left : headMark ∉ c.left.toList
  right : headMark ∉ c.right.toList
  state : IsState c.state
  cursor : ∃ x : Char, c.cursor = x.toString

end Configuration

variable {d : Definition} {t : Transition} {c : Configuration}

/-! ## Text in which no record ends

The head writes word characters only. Of a record it may write the states that the listing starts
with but never the colon after them, so the rest of a record that is not the head's own stood on the
tape from the start. -/

/-- What a head record ends with, from the colon of the listing on. -/
def recordTail (d : Definition) (state cursor : List Char) : List Char :=
  ':' :: (d.symbols.flatMap String.toList ++ '-' :: (state ++ ':' :: (cursor ++ [headMark])))

theorem recordText_eq (d : Definition) (state cursor : List Char) :
    recordText d state cursor =
      headMark :: (d.states.flatMap String.toList ++ recordTail d state cursor) := by
  simp [recordText, recordTail, Definition.toList_listing]

/-- In a clear text no head record ends. -/
def Definition.Clear (d : Definition) (s : List Char) : Prop :=
  ∀ (state : String) (x : Char), IsState state → x ≠ '\n' →
    ¬ recordTail d state.toList [x] <:+: s

namespace Definition.Clear

variable {s : List Char}

theorem mono {u : List Char} (h : d.Clear s) (hu : u <:+: s) : d.Clear u :=
  fun state x hstate hx htail => h state x hstate hx (htail.trans hu)

theorem of_headMark_not_mem (h : headMark ∉ s) : d.Clear s :=
  fun _ _ _ _ htail => h (htail.subset (by simp [recordTail]))

theorem cons {y : Char} (h : d.Clear s) (hy : y ≠ ':') : d.Clear (y :: s) := by
  intro state x hstate hx htail
  rcases List.infix_cons_iff.mp htail with hprefix | hinfix
  · exact hy (List.cons_prefix_cons.mp hprefix).1.symm
  · exact h state x hstate hx hinfix

/-- A record ends with a mark, so text without a mark does not complete one. -/
theorem append {blank : List Char} (h : d.Clear s) (hblank : headMark ∉ blank) :
    d.Clear (s ++ blank) := by
  rintro state x hstate hx ⟨before, after, htext⟩
  rcases List.append_eq_append_iff.mp htext with ⟨rest, hs, -⟩ | ⟨rest, htail, hrest⟩
  · exact h state x hstate hx ⟨before, rest, hs.symm⟩
  · have hlast : (before ++ recordTail d state.toList [x]).getLast? = some headMark := by
      simp [recordTail, List.getLast?_append, List.getLast?_cons]
    rcases List.eq_nil_or_concat rest with rfl | ⟨front, y, rfl⟩
    · rw [List.append_nil] at htail
      exact h state x hstate hx ⟨before, [], by rw [List.append_nil, htail]⟩
    · rw [htail, List.concat_eq_append, ← List.append_assoc, List.getLast?_concat] at hlast
      exact hblank (by simp [hrest, Option.some.inj hlast])

theorem not_recordText_within (h : d.Clear s) (ht : t.WellFormed) :
    ¬ recordText d t.state.toList t.symbol.toList <:+: s := by
  intro hrecord
  obtain ⟨x, hx, hword⟩ := ht.symbol
  have hfeed : x ≠ '\n' := by
    rintro rfl
    exact absurd hword (by decide +kernel)
  have hsymbol : t.symbol.toList = [x] := by simp [hx, Char.toString]
  rw [recordText_eq, hsymbol] at hrecord
  refine h t.state x ht.state hfeed (List.IsInfix.trans ?_ hrecord)
  exact ((List.suffix_append ..).trans (List.suffix_cons ..)).isInfix

end Definition.Clear

/-- The head's own record is the only one: no mark stands to its left, and no record ends to its
right. Other marks may stand on the tape, also under the head. -/
structure Configuration.Intact (d : Definition) (c : Configuration) : Prop where
  left : headMark ∉ c.left.toList
  right : d.Clear c.right.toList
  state : IsState c.state
  cursor : ∃ x : Char, c.cursor = x.toString

theorem Configuration.WellFormed.intact (hc : c.WellFormed) : c.Intact d :=
  ⟨hc.left, .of_headMark_not_mem hc.right, hc.state, hc.cursor⟩

/-! ## Where a record stands -/

/-- Between its marks a written record holds no mark. -/
theorem headMark_not_mem_record (hd : ∀ t ∈ d.transitions, t.WellFormed) (ht : t.WellFormed) :
    headMark ∉ d.listing.toList ++ '-' :: (t.state.toList ++ ':' :: t.symbol.toList) := by
  simp only [List.mem_append, List.mem_cons, not_or]
  exact ⟨Definition.headMark_not_mem_listing hd, by decide, ht.state.headMark_not_mem, by decide,
    ht.symbol.headMark_not_mem⟩

/-- No record starts at the cursor of another one or after it. -/
theorem not_recordText_prefix_drop (hd : ∀ t ∈ d.transitions, t.WellFormed) (ht : t.WellFormed)
    {x : Char} {right : List Char} (hright : d.Clear right) (k : ℕ) :
    ¬ recordText d t.state.toList t.symbol.toList <+: (x :: headMark :: right).drop k := by
  intro h
  have hrecord : recordText d t.state.toList t.symbol.toList =
      headMark :: ((d.listing.toList ++ '-' :: (t.state.toList ++ ':' :: t.symbol.toList)) ++
        headMark :: []) := by
    simp [recordText]
  have hinside := headMark_not_mem_record hd ht
  cases k with
  | zero =>
      rw [hrecord, List.drop_zero, List.cons_prefix_cons] at h
      have hempty := (append_cons_prefix_iff _ [] _ right hinside List.not_mem_nil).mp h.2
      simp at hempty
  | succ k =>
      rw [List.drop_succ_cons] at h
      cases k with
      | zero =>
          rw [List.drop_zero] at h
          exact (hright.cons (by decide)).not_recordText_within ht h.isInfix
      | succ k =>
          rw [List.drop_succ_cons] at h
          exact hright.not_recordText_within ht (h.isInfix.trans (List.drop_suffix k right).isInfix)

/-- The record of a transition stands only where the configuration's own record does, and only if
it is the same record. -/
theorem eq_of_recordText_prefix (hd : ∀ t ∈ d.transitions, t.WellFormed) (ht : t.WellFormed)
    (hc : c.Intact d) {q : ℕ}
    (h : recordText d t.state.toList t.symbol.toList <+: (c.text d).drop q) :
    q = c.left.toList.length ∧ t.state = c.state ∧ t.symbol = c.cursor := by
  obtain ⟨x, hx⟩ := hc.cursor
  obtain ⟨s, hs, -⟩ := ht.symbol
  have hcursor : c.cursor.toList = [x] := by simp [hx, Char.toString]
  have hsymbol : t.symbol.toList = [s] := by simp [hs, Char.toString]
  have hq : c.left.toList.length ≤ q := length_le_of_prefix_drop hc.left h
  obtain ⟨j, rfl⟩ := Nat.exists_eq_add_of_le hq
  rw [Configuration.text, List.drop_length_add_append] at h
  cases j with
  | zero =>
      simp only [recordText, List.drop_zero, List.cons_append, List.append_assoc,
        List.cons_prefix_cons, List.prefix_append_right_inj, true_and] at h
      obtain ⟨hstate, hrest⟩ := (append_cons_prefix_iff _ _ _ _ ht.state.colon_not_mem
        hc.state.colon_not_mem).mp h
      rw [hcursor, hsymbol, List.cons_append, List.cons_append, List.cons_prefix_cons] at hrest
      refine ⟨rfl, String.toList_inj.mp hstate, ?_⟩
      rw [hs, hx, hrest.1]
  | succ j =>
      exfalso
      have hlisting := Definition.headMark_not_mem_listing hd
      have hinside : headMark ∉ d.listing.toList ++ '-' :: (c.state.toList ++ [':']) := by
        simp only [List.mem_append, List.mem_cons, List.not_mem_nil, or_false, not_or]
        exact ⟨hlisting, by decide, hc.state.headMark_not_mem, by decide⟩
      have hsplit : recordText d c.state.toList c.cursor.toList ++ c.right.toList =
          headMark :: ((d.listing.toList ++ '-' :: (c.state.toList ++ [':'])) ++
            x :: headMark :: c.right.toList) := by
        simp [recordText, hcursor]
      rw [hsplit, List.drop_succ_cons] at h
      obtain ⟨k, rfl⟩ := Nat.exists_eq_add_of_le (length_le_of_prefix_drop hinside h)
      rw [List.drop_length_add_append] at h
      exact not_recordText_prefix_drop hd ht hc.right k h

namespace Transition

/-- Where the clause of a transition would start to match and the cell that the head would move
to. -/
def target? (t : Transition) (c : Configuration) : Option (ℕ × Char) :=
  if t.direction = .right then c.right.toList.head?.map fun y => (c.left.toList.length, y)
  else c.left.toList.getLast?.map fun y => (c.left.toList.length - 1, y)

/-- The text of a clause stands in a buffer only where the transition applies. -/
theorem target?_of_matchText_prefix (hd : ∀ t ∈ d.transitions, t.WellFormed) (ht : t.WellFormed)
    (hc : c.Intact d) {q : ℕ} {y : Char} (h : t.matchText d y <+: (c.text d).drop q) :
    t.state = c.state ∧ t.symbol = c.cursor ∧ t.target? c = some (q, y) := by
  rw [matchText] at h
  by_cases hright : t.direction = .right
  · simp only [hright, if_true, append_prefix_drop_iff] at h
    obtain ⟨rfl, hstate, hsymbol⟩ := eq_of_recordText_prefix hd ht hc h.1
    refine ⟨hstate, hsymbol, ?_⟩
    have hcell := h.2
    rw [Configuration.text, List.drop_length_add_append, hstate, hsymbol,
      List.drop_left] at hcell
    obtain ⟨rest, hrest⟩ := hcell
    rw [target?, if_pos hright, ← hrest]
    rfl
  · simp only [hright, if_false, cons_prefix_drop_iff] at h
    obtain ⟨hq, hstate, hsymbol⟩ := eq_of_recordText_prefix hd ht hc h.2
    refine ⟨hstate, hsymbol, ?_⟩
    have hcell := h.1
    rw [Configuration.text, List.getElem?_append_left (by omega)] at hcell
    have hlast : c.left.toList.length - 1 = q := by omega
    rw [target?, if_neg hright, List.getLast?_eq_getElem?, hlast, hcell]
    rfl

end Transition

end SubstitutionAutomata
