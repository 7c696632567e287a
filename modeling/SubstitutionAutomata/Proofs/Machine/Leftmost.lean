import SubstitutionAutomata.Proofs.Engine.Run
import SubstitutionAutomata.Proofs.Machine.Decode
import SubstitutionAutomata.Proofs.Machine.Move
import SubstitutionAutomata.Proofs.Machine.Pattern
import SubstitutionAutomata.Proofs.Regex.Pass
import Mathlib.Logic.Function.Iterate

/-! # Which of several transitions is made

The clause of a transition to the left takes the character before the head record, so it matches
before every clause of a transition to the right does. The order of the list decides only between
transitions to one side. -/

namespace SubstitutionAutomata

open Regex Text

variable {d : Definition} {t t' : Transition} {c c' : Configuration}

/-! ## The transition of the leftmost match -/

/-- Where the clause of a transition would start to match. -/
def Transition.place (t : Transition) (c : Configuration) : ℕ :=
  if t.direction = .right then c.left.toList.length else c.left.toList.length - 1

theorem Transition.place_of_target? {q : ℕ} {y : Char} (h : t.target? c = some (q, y)) :
    t.place c = q := by
  rw [target?] at h
  rw [place]
  split at h <;> rename_i hright
  · obtain ⟨_, -, hq⟩ := Option.map_eq_some_iff.mp h
    rw [if_pos hright, (Prod.mk.inj hq).1]
  · obtain ⟨_, -, hq⟩ := Option.map_eq_some_iff.mp h
    rw [if_neg hright, (Prod.mk.inj hq).1]

namespace Definition

/-- The listed transitions that have a move, in the order of the list. -/
def applicable (d : Definition) (c : Configuration) : List Transition :=
  d.transitions.filter fun t => t.state = c.state && t.symbol = c.cursor && (c.move? t).isSome

/-- Of the transitions that have a move, the first one to the left; the first of all if none of them
goes to the left. -/
def leftmost? (d : Definition) (c : Configuration) : Option Transition :=
  ((d.applicable c).find? fun t => t.direction ≠ .right).or (d.applicable c).head?

theorem mem_applicable_iff : t ∈ d.applicable c ↔ ∃ c', c.MovesBy d t c' := by
  simp only [applicable, List.mem_filter, Bool.and_eq_true, decide_eq_true_eq,
    Option.isSome_iff_exists]
  constructor
  · rintro ⟨hmem, ⟨hstate, hsymbol⟩, c', hmove⟩
    exact ⟨c', hmem, hstate, hsymbol, hmove⟩
  · rintro ⟨c', hmem, hstate, hsymbol, hmove⟩
    exact ⟨hmem, ⟨hstate, hsymbol⟩, c', hmove⟩

theorem mem_applicable_of_leftmost? (h : d.leftmost? c = some t) : t ∈ d.applicable c := by
  rcases Option.or_eq_some_iff.mp h with hleft | ⟨-, hhead⟩
  · exact List.mem_of_find?_eq_some hleft
  · exact List.mem_of_head? hhead

theorem leftmost?_eq_none_iff : d.leftmost? c = none ↔ d.applicable c = [] := by
  rw [leftmost?, Option.or_eq_none_iff, List.head?_eq_none_iff]
  constructor
  · exact And.right
  · intro h
    exact ⟨by simp [h], h⟩

theorem place_bounds (t : Transition) (c : Configuration) :
    c.left.toList.length ≤ t.place c + 1 ∧ t.place c ≤ c.left.toList.length := by
  rw [Transition.place]
  split <;> omega

/-- A transition to the left has a cell to move to. -/
theorem place_lt_of_mem_applicable (h : t ∈ d.applicable c) (hleft : t.direction ≠ .right) :
    t.place c < c.left.toList.length := by
  obtain ⟨c', hmoves⟩ := mem_applicable_iff.mp h
  obtain ⟨y, rest, -, ⟨hright, -, -⟩ | ⟨-, hcells, -⟩⟩ := Configuration.move?_cases hmoves.move
  · exact absurd hright hleft
  · simp [Transition.place, hleft, hcells]

/-- No transition that has a move matches before the leftmost one, and none that is listed earlier
matches at its place. -/
theorem leftmost?_spec (h : d.leftmost? c = some t) :
    ∃ earlier later, d.transitions = earlier ++ t :: later ∧
      (∀ t' ∈ earlier, t' ∈ d.applicable c → t.place c < t'.place c) ∧
      ∀ t' ∈ d.applicable c, t.place c ≤ t'.place c := by
  have hmem := mem_applicable_of_leftmost? h
  rcases Option.or_eq_some_iff.mp h with hleft | ⟨hnone, hhead⟩
  · rw [applicable, List.find?_filter, List.find?_eq_some_iff_append] at hleft
    obtain ⟨ht, earlier, later, htransitions, hearlier⟩ := hleft
    simp only [Bool.and_eq_true, decide_eq_true_eq] at ht
    have hlt := place_lt_of_mem_applicable hmem ht.2
    have hplace : t.place c = c.left.toList.length - 1 := if_neg ht.2
    refine ⟨earlier, later, htransitions, ?_, ?_⟩
    · intro t' ht' happlicable
      have hright : t'.direction = .right := by
        have hfails := hearlier t' ht'
        have hholds := (List.mem_filter.mp happlicable).2
        simpa [hholds] using hfails
      rwa [show t'.place c = c.left.toList.length from if_pos hright]
    · intro t' _
      have hbounds := place_bounds t' c
      omega
  · rw [applicable, List.head?_filter, List.find?_eq_some_iff_append] at hhead
    obtain ⟨-, earlier, later, htransitions, hearlier⟩ := hhead
    have hright : ∀ t' ∈ d.applicable c, t'.place c = c.left.toList.length := by
      intro t' ht'
      exact if_pos (by simpa using List.find?_eq_none.mp hnone t' ht')
    refine ⟨earlier, later, htransitions, ?_, ?_⟩
    · intro t' ht' happlicable
      have hfails := hearlier t' ht'
      simp [(List.mem_filter.mp happlicable).2] at hfails
    · intro t' ht'
      rw [hright t hmem, hright t' ht']

end Definition

/-- The move that the pattern makes. -/
def Configuration.leftmostStep? (d : Definition) (c : Configuration) : Option Configuration :=
  (d.leftmost? c).bind c.move?

theorem Configuration.exists_leftmostStep? (h : d.leftmost? c = some t) :
    ∃ c', c.MovesBy d t c' ∧ c.leftmostStep? d = some c' := by
  obtain ⟨c', hmoves⟩ :=
    Definition.mem_applicable_iff.mp (Definition.mem_applicable_of_leftmost? h)
  exact ⟨c', hmoves, Option.bind_eq_some_iff.mpr ⟨t, h, hmoves.move⟩⟩

theorem Configuration.exists_movesBy_of_leftmostStep? (h : c.leftmostStep? d = some c') :
    ∃ t, d.leftmost? c = some t ∧ c.MovesBy d t c' := by
  obtain ⟨t, ht, hmove⟩ := Option.bind_eq_some_iff.mp h
  obtain ⟨_, hmoves, -⟩ := exists_leftmostStep? ht
  exact ⟨t, ht, hmoves.mem, hmoves.state, hmoves.symbol, hmove⟩

theorem Configuration.leftmostStep?_eq_none_iff :
    c.leftmostStep? d = none ↔ d.applicable c = [] := by
  rw [← Definition.leftmost?_eq_none_iff]
  constructor
  · intro h
    by_contra hsome
    obtain ⟨t, ht⟩ := Option.ne_none_iff_exists'.mp hsome
    obtain ⟨c', -, hstep⟩ := exists_leftmostStep? ht
    cases h.symm.trans hstep
  · intro h
    rw [leftmostStep?, h]
    rfl

/-! ## One pass -/

/-- Where the clause of a listed transition matches, the transition has a move. -/
theorem mem_applicable_of_matchText (hd : ∀ t ∈ d.transitions, t.WellFormed) (hc : c.Intact d)
    (ht : t ∈ d.transitions) {q : ℕ} {y : Char} (hword : isWord y = true)
    (h : t.matchText d y <+: (c.text d).drop q) :
    t ∈ d.applicable c ∧ t.place c = q := by
  obtain ⟨hstate, hsymbol, htarget⟩ := Transition.target?_of_matchText_prefix hd (hd t ht) hc h
  have hmove := (Configuration.isSome_move?_iff c t).mpr ⟨q, y, htarget, hword⟩
  obtain ⟨c', hmove⟩ := Option.isSome_iff_exists.mp hmove
  exact ⟨Definition.mem_applicable_iff.mpr ⟨c', ht, hstate, hsymbol, hmove⟩,
    Transition.place_of_target? htarget⟩

theorem matchAt_eq_none (hd : ∀ t ∈ d.transitions, t.WellFormed) (hc : c.Intact d) {q : ℕ}
    (h : ∀ t ∈ d.applicable c, t.place c ≠ q) :
    (clauseChoice d.clauseItems).matchAt (c.text d).toArray q = none := by
  rw [matchAt_clauseChoice, List.findSome?_eq_none_iff]
  intro items hitems
  obtain ⟨⟨other, i⟩, hother, rfl⟩ := List.mem_map.mp hitems
  apply Transition.matchAt_eq_none
  intro y hword hprefix
  rw [← Transition.matchText_eq_listedText] at hprefix
  obtain ⟨hmem, hplace⟩ := mem_applicable_of_matchText hd hc
    (List.fst_mem_of_mem_zipIdx hother) hword hprefix
  exact h other hmem hplace

/-- Where the clause of the leftmost transition stands, it is the first clause that matches. -/
theorem matchAt_of_leftmost? (hd : ∀ t ∈ d.transitions, t.WellFormed) (hc : c.Intact d)
    (ht : d.leftmost? c = some t) {q : ℕ} {y : Char} (hword : isWord y = true)
    (h : t.matchText d y <+: (c.text d).drop q) :
    ∃ i m, (t, i) ∈ d.transitions.zipIdx ∧
      (clauseChoice d.clauseItems).matchAt (c.text d).toArray q = some m ∧
      Transition.MatchesRecord (c.text d).toArray d.states d.symbols t i q y m := by
  obtain ⟨earlier, later, htransitions, hearlier, -⟩ := Definition.leftmost?_spec ht
  have hmem : t ∈ d.transitions := by simp [htransitions]
  obtain ⟨m, hm, hrecord⟩ := Transition.matchAt_of_listedText (i := earlier.length)
    (c.text d).toArray q (Definition.next_mem hmem) (Definition.written_mem hmem) hword
    (Transition.matchText_eq_listedText d y ▸ h)
  have hindex : (t, earlier.length) ∈ d.transitions.zipIdx := by
    rw [htransitions, List.zipIdx_append, List.zipIdx_cons]
    simp
  refine ⟨earlier.length, m, hindex, ?_, hrecord⟩
  rw [matchAt_clauseChoice, Definition.clauseItems, htransitions, List.zipIdx_append,
    List.map_append, List.findSome?_append]
  refine Option.or_eq_some_iff.mpr (.inr ⟨?_, ?_⟩)
  · rw [List.findSome?_eq_none_iff]
    intro items hitems
    obtain ⟨⟨other, i⟩, hother, rfl⟩ := List.mem_map.mp hitems
    have hother := List.fst_mem_of_mem_zipIdx hother
    apply Transition.matchAt_eq_none
    intro z hz hprefix
    rw [← Transition.matchText_eq_listedText] at hprefix
    have hlisted : other ∈ d.transitions := by simp [htransitions, hother]
    obtain ⟨happlicable, hplace⟩ :=
      mem_applicable_of_matchText hd hc hlisted hz hprefix
    have hlt := hearlier other hother happlicable
    have hq := (mem_applicable_of_matchText hd hc hmem hword h).2
    omega
  · rw [List.zipIdx_cons, List.map_cons, List.findSome?_cons]
    simp only [Nat.zero_add, hm]

/-- The leftmost transition is one replacement. -/
theorem substitute_of_leftmostStep? (hd : ∀ t ∈ d.transitions, t.WellFormed) (hc : c.Intact d)
    (h : c.leftmostStep? d = some c') :
    (clauseChoice d.clauseItems).substituteFrom d.templateParts (c.text d).toArray (c.text d) 0 0 =
      (c'.text d, 1) := by
  obtain ⟨t, ht, hmoves⟩ := Configuration.exists_movesBy_of_leftmostStep? h
  obtain ⟨y, before, rest, hword, htext, htext'⟩ := Configuration.text_of_movesBy hmoves
  have hprefix : t.matchText d y <+: (c.text d).drop before.length := by
    rw [htext, List.drop_left]
    exact List.prefix_append ..
  have hplace := (mem_applicable_of_matchText hd hc hmoves.mem hword hprefix).2
  obtain ⟨i, m, hmem, hm, hrecord⟩ := matchAt_of_leftmost? hd hc ht hword hprefix
  obtain ⟨-, -, -, -, hleast⟩ := Definition.leftmost?_spec ht
  have hstop := hrecord.stop
  rw [← Transition.matchText_eq_listedText] at hstop
  have hlength : 3 ≤ (t.matchText d y).length := by
    rw [Transition.length_matchText, recordText]
    simp only [List.length_cons, List.length_append]
    omega
  have hbefore : ∀ q < before.length,
      (clauseChoice d.clauseItems).matchAt (c.text d).toArray q = none := by
    intro q hq
    apply matchAt_eq_none hd hc
    intro other hother
    have hle := hleast other hother
    omega
  have hafter : ∀ q, m.stop ≤ q →
      (clauseChoice d.clauseItems).matchAt (c.text d).toArray q = none := by
    intro q hq
    apply matchAt_eq_none hd hc
    intro other _
    have hbounds := Definition.place_bounds t c
    have hother := Definition.place_bounds other c
    omega
  have hpass := @substituteFrom_single _ d.templateParts _ before (t.matchText d y) rest m
    (List.ne_nil_of_length_pos (by omega)) hm hstop hbefore (fun q hq _ => hafter q hq)
  rw [← htext, Definition.expand_templateParts _ _ m hmem hrecord] at hpass
  rw [hpass, htext']
  rfl

/-- If no transition has a move, nothing is replaced. -/
theorem substitute_of_leftmostStep?_eq_none (hd : ∀ t ∈ d.transitions, t.WellFormed)
    (hc : c.Intact d) (h : c.leftmostStep? d = none) :
    (clauseChoice d.clauseItems).substituteFrom d.templateParts (c.text d).toArray (c.text d) 0 0 =
      (c.text d, 0) := by
  apply substituteFrom_of_none
  intro q _ _
  apply matchAt_eq_none hd hc
  intro t ht
  rw [Configuration.leftmostStep?_eq_none_iff.mp h] at ht
  cases ht

theorem Configuration.ofList_text (tape : Tape) (c : Configuration) :
    String.ofList (c.text tape.definition) = tape.encodeHead c := by
  rw [← toList_encodeHead, String.ofList_toList]

/-- A pattern makes a move of every configuration of some kind: it replaces one record, or none
where there is no move. -/
def Tape.Makes (tape : Tape) (p : Pattern) (kind : Configuration → Prop)
    (move : Configuration → Option Configuration) : Prop :=
  ∀ c, kind c →
    p.apply (tape.encodeHead c) =
      .ok (tape.encodeHead ((move c).getD c), if (move c).isSome then 1 else 0)

/-- The pattern of a definition makes the move of the leftmost transition. -/
theorem Tape.exists_pattern_leftmost_of_intact (tape : Tape)
    (hd : ∀ t ∈ tape.definition.transitions, t.WellFormed) :
    ∃ p, tape.definition.pattern = .ok p ∧
      tape.Makes p (Configuration.Intact tape.definition)
        (Configuration.leftmostStep? tape.definition) := by
  obtain ⟨p, hp, hregex, htemplate⟩ := tape.definition.exists_pattern
  refine ⟨p, hp, fun c hc => ?_⟩
  rw [Pattern.apply, htemplate]
  simp only [substitute, hregex, Configuration.toList_encodeHead]
  cases h : c.leftmostStep? tape.definition with
  | none =>
      rw [substitute_of_leftmostStep?_eq_none hd hc h]
      simp [Configuration.ofList_text]
  | some c' =>
      rw [substitute_of_leftmostStep? hd hc h]
      simp [Configuration.ofList_text]

/-- On a tape without a mark it does so too. -/
theorem Tape.exists_pattern_leftmost (tape : Tape)
    (hd : ∀ t ∈ tape.definition.transitions, t.WellFormed) :
    ∃ p, tape.definition.pattern = .ok p ∧
      tape.Makes p Configuration.WellFormed (Configuration.leftmostStep? tape.definition) := by
  obtain ⟨p, hp, happly⟩ := tape.exists_pattern_leftmost_of_intact hd
  exact ⟨p, hp, fun c hc => happly c hc.intact⟩

/-- A step of an engine that shows a configuration makes the move. -/
theorem Tape.Makes.step_eq {tape : Tape} {p : Pattern} {kind : Configuration → Prop}
    {move : Configuration → Option Configuration} (h : tape.Makes p kind move) {e : Engine}
    (hpattern : e.pattern = p) (hbuffer : e.buffer = tape.encodeHead c) (hc : kind c) :
    e.step false =
      ({ e with
          buffer := tape.encodeHead ((move c).getD c)
          generation := e.generation + 1 }, .ok (if (move c).isSome then 1 else 0)) := by
  have happly := h c hc
  rw [← hpattern, ← hbuffer] at happly
  exact Engine.step_eq_of_apply happly

/-- An engine that shows a configuration shows all later ones, if the pattern makes the move of
every configuration of some kind and keeps to the kind. -/
theorem Engine.after_iterate (tape : Tape) {p : Pattern} {kind : Configuration → Prop}
    {move : Configuration → Option Configuration} (happly : tape.Makes p kind move)
    (hnext : ∀ c, kind c → kind ((move c).getD c)) (n : ℕ) (e : Engine) (c : Configuration)
    (hpattern : e.pattern = p) (hbuffer : e.buffer = tape.encodeHead c) (hc : kind c) :
    (e.after n).pattern = p ∧
      (e.after n).buffer = tape.encodeHead ((fun c => (move c).getD c)^[n] c) ∧
      kind ((fun c => (move c).getD c)^[n] c) := by
  induction n generalizing e c with
  | zero => exact ⟨hpattern, hbuffer, hc⟩
  | succ n ih =>
      rw [after, happly.step_eq hpattern hbuffer hc, Function.iterate_succ_apply]
      exact ih _ _ hpattern rfl (hnext c hc)

/-! ## Agreement with the table -/

/-- The first listed transition for the state and the symbol under the head has a move to the left,
or no transition to the other side has a move. -/
def Definition.FirstListedDecides (d : Definition) (c : Configuration) : Prop :=
  ∀ t, d.transition? c.state c.cursor = some t →
    t.direction ≠ .right ∧ (c.move? t).isSome = true ∨
      ∀ t' ∈ d.applicable c, t'.direction = .right ↔ t.direction = .right

namespace Configuration

theorem head?_applicable (ht : d.transition? c.state c.cursor = some t)
    (hmove : c.move? t = some c') : (d.applicable c).head? = some t := by
  obtain ⟨hfound, earlier, later, htransitions, hearlier⟩ :=
    List.find?_eq_some_iff_append.mp ht
  rw [Definition.applicable, List.head?_filter, List.find?_eq_some_iff_append]
  refine ⟨by simpa [hmove] using hfound, earlier, later, htransitions, ?_⟩
  intro other hother
  have hfails := hearlier other hother
  simp only [Bool.not_eq_true'] at hfails
  simp [hfails]

theorem leftmostStep?_eq_step? (h : d.FirstListedDecides c) : c.leftmostStep? d = c.step? d := by
  rw [step?_eq_bind]
  cases ht : d.transition? c.state c.cursor with
  | none =>
      rw [Option.bind_none, leftmostStep?_eq_none_iff, List.eq_nil_iff_forall_not_mem]
      intro t' ht'
      obtain ⟨_, hmem, hstate, hsymbol, -⟩ := Definition.mem_applicable_iff.mp ht'
      have hfails := List.find?_eq_none.mp ht t' hmem
      simp [hstate, hsymbol] at hfails
  | some t =>
      rw [Option.bind_some]
      have hdecides := h t ht
      cases hmove : c.move? t with
      | none =>
          rw [leftmostStep?_eq_none_iff, List.eq_nil_iff_forall_not_mem]
          intro t' ht'
          obtain ⟨c', hmoves⟩ := Definition.mem_applicable_iff.mp ht'
          have hsides := (hdecides.resolve_left (by simp [hmove])) t' ht'
          have htarget := (isSome_move?_iff c t').mp (by simp [hmoves.move])
          rw [Transition.target?_congr hsides, ← isSome_move?_iff, hmove] at htarget
          cases htarget
      | some c' =>
          have hhead := head?_applicable ht hmove
          have hleftmost : d.leftmost? c = some t := by
            rw [Definition.leftmost?]
            by_cases hright : t.direction = .right
            · have hnone : (d.applicable c).find? (fun t => t.direction ≠ .right) = none := by
                rw [List.find?_eq_none]
                intro t' ht'
                have hsides := (hdecides.resolve_left (by simp [hright])) t' ht'
                simpa [hright] using hsides
              rw [hnone, Option.none_or, hhead]
            · obtain ⟨rest, hrest⟩ := List.head?_eq_some_iff.mp hhead
              rw [hrest, List.find?_cons_of_pos (by simpa using hright), Option.some_or]
          rw [leftmostStep?, hleftmost, Option.bind_some, hmove]

/-- The pattern makes the move of the table exactly if the first listed transition decides. -/
theorem leftmostStep?_eq_step?_iff (hd : ∀ t ∈ d.transitions, t.WellFormed) :
    c.leftmostStep? d = c.step? d ↔ d.FirstListedDecides c := by
  refine ⟨fun h t ht => ?_, leftmostStep?_eq_step?⟩
  rw [step?_eq_bind, ht, Option.bind_some] at h
  by_cases hright : t.direction = .right
  · right
    intro t' ht'
    by_contra hsides
    have hleft : t'.direction ≠ .right := by simpa [hright] using hsides
    -- The leftmost transition goes to the left as `t'` does, so it does not share the move of `t`.
    have hne : c.leftmostStep? d ≠ none := fun hnone => by
      rw [leftmostStep?_eq_none_iff.mp hnone] at ht'
      cases ht'
    obtain ⟨c', hc'⟩ := Option.ne_none_iff_exists'.mp hne
    obtain ⟨first, hfirst, hmoves⟩ := exists_movesBy_of_leftmostStep? hc'
    have hplace := (Definition.leftmost?_spec hfirst).choose_spec.choose_spec.2.2 t' ht'
    have hlt := Definition.place_lt_of_mem_applicable ht' hleft
    have hmem := (Definition.transition?_spec ht).1
    rcases position_of_move? (hd first hmoves.mem) hmoves.move with ⟨hfirstRight, -⟩ | ⟨-, hback⟩
    · rw [Transition.place, if_pos hfirstRight] at hplace
      omega
    · rcases position_of_move? (hd t hmem) (h.symm.trans hc') with ⟨-, hforth⟩ | ⟨hne, -⟩
      · omega
      · exact hne hright
  · cases hmove : c.move? t with
    | some c' => exact .inl ⟨hright, rfl⟩
    | none =>
        rw [hmove, leftmostStep?_eq_none_iff] at h
        exact .inr (by simp [h])

end Configuration

/-- One generation shows a move, or replaces nothing where there is none. -/
def Engine.HasEffect (e : Engine) (tape : Tape) (c : Configuration) (move? : Option Configuration) :
    Prop :=
  (e.step false).1.buffer = tape.encodeHead (move?.getD c) ∧
    (e.step false).2 = .ok (if move?.isSome then 1 else 0)

/-- A buffer determines the move that it shows. -/
theorem Engine.HasEffect.unique {e : Engine} {tape : Tape} {move? other? : Option Configuration}
    (h : e.HasEffect tape c move?) (h' : e.HasEffect tape c other?)
    (hmove : ∀ c', move? = some c' → c'.WellFormed ∧ c'.cursor ≠ "\n")
    (hother : ∀ c', other? = some c' → c'.WellFormed ∧ c'.cursor ≠ "\n") : move? = other? := by
  have hbuffer := h.1.symm.trans h'.1
  have hcount := h.2.symm.trans h'.2
  cases move? with
  | none =>
      cases other? with
      | none => rfl
      | some c' => simp at hcount
  | some c₁ =>
      cases other? with
      | none => simp at hcount
      | some c₂ =>
          obtain ⟨hc₁, hcursor₁⟩ := hmove c₁ rfl
          obtain ⟨hc₂, hcursor₂⟩ := hother c₂ rfl
          have hread := tape.decode_encodeHead hc₁ hcursor₁
          rw [show tape.encodeHead c₁ = tape.encodeHead c₂ from hbuffer,
            tape.decode_encodeHead hc₂ hcursor₂] at hread
          rw [Except.ok.inj hread]

/-- A move leads to a configuration that its buffer reads back as. -/
theorem Configuration.MovesBy.readable (hd : ∀ t ∈ d.transitions, t.WellFormed) (hc : c.WellFormed)
    (h : c.MovesBy d t c') : c'.WellFormed ∧ c'.cursor ≠ "\n" :=
  ⟨hc.of_move? (hd t h.mem) h.move, cursor_ne_of_move? h.move⟩

/-- Of all transitions that have a move, a generation makes the first listed one to the left, or the
first listed one if none goes to the left. This is the move of the table exactly if the first listed
transition for the state and the symbol decides. -/
theorem Definition.generation_makes_leftmost_move {lines accepting : List String} {d : Definition}
    (hlines : ofLines lines accepting = .ok d) (tape : Tape) (htape : tape.definition = d)
    (c : Configuration) (hc : c.WellFormed) :
    ∃ p, d.pattern = .ok p ∧
      (Engine.ofBuffer p (tape.encodeHead c)).HasEffect tape c (c.leftmostStep? d) ∧
      ((Engine.ofBuffer p (tape.encodeHead c)).HasEffect tape c (c.step? d) ↔
        d.FirstListedDecides c) := by
  subst htape
  have hd := wellFormed_of_ofLines hlines
  obtain ⟨p, hp, happly⟩ := tape.exists_pattern_leftmost hd
  have heffect : (Engine.ofBuffer p (tape.encodeHead c)).HasEffect tape c
      (c.leftmostStep? tape.definition) := by
    rw [Engine.HasEffect, happly.step_eq rfl rfl hc]
    exact ⟨rfl, rfl⟩
  refine ⟨p, hp, heffect, ?_⟩
  rw [← Configuration.leftmostStep?_eq_step?_iff hd]
  constructor
  · intro htable
    refine heffect.unique htable ?_ ?_
    · intro c' hc'
      obtain ⟨t, -, hmoves⟩ := Configuration.exists_movesBy_of_leftmostStep? hc'
      exact hmoves.readable hd hc
    · intro c' hc'
      obtain ⟨t, -, hmoves⟩ := Configuration.exists_movesBy_of_step? hc'
      exact hmoves.readable hd hc
  · intro heq
    rwa [← heq]

/-- Two transitions for one state and one symbol, the first to the right and the second to the
left. -/
def Definition.bothWays : Definition :=
  ⟨["Q0:a/b->R:Q1", "Q0:a/c->L:Q2"],
    [⟨"Q0", "a", "b", .right, "Q1"⟩, ⟨"Q0", "a", "c", .left, "Q2"⟩], [], List.cons_ne_nil _ _⟩

theorem Definition.ofLines_bothWays :
    ofLines ["Q0:a/b->R:Q1", "Q0:a/c->L:Q2"] [] = .ok bothWays := by rfl

/-- At the left end of the tape there is only the move to the right. -/
theorem Definition.generation_makes_leftmost_move_at_end :
    ofLines ["Q0:a/b->R:Q1", "Q0:a/c->L:Q2"] [] = .ok bothWays ∧
      (⟨"", "Q0", "a", "y"⟩ : Configuration).WellFormed ∧
      ∃ p, bothWays.pattern = .ok p ∧
        ((Engine.ofBuffer p "#Q0Q1Q2:abc-Q0:a#y").step false).1.buffer = "b#Q0Q1Q2:abc-Q1:y#" ∧
        ((Engine.ofBuffer p "#Q0Q1Q2:abc-Q0:a#y").step false).2 = .ok 1 := by
  have hc : (⟨"", "Q0", "a", "y"⟩ : Configuration).WellFormed :=
    ⟨by decide, by decide, isState_zero, 'a', rfl⟩
  obtain ⟨p, hp, ⟨hbuffer, hcount⟩, -⟩ :=
    generation_makes_leftmost_move ofLines_bothWays ⟨bothWays, 0, "_"⟩ rfl _ hc
  have hstart : Tape.encodeHead ⟨bothWays, 0, "_"⟩ ⟨"", "Q0", "a", "y"⟩ =
      "#Q0Q1Q2:abc-Q0:a#y" := by decide
  have hmove : Configuration.leftmostStep? bothWays ⟨"", "Q0", "a", "y"⟩ =
      some ⟨"b", "Q1", "y", ""⟩ := by decide
  have hend : Tape.encodeHead ⟨bothWays, 0, "_"⟩ ⟨"b", "Q1", "y", ""⟩ =
      "b#Q0Q1Q2:abc-Q1:y#" := by decide
  rw [hmove, hstart, Option.getD_some, hend] at hbuffer
  rw [hmove, hstart] at hcount
  exact ⟨ofLines_bothWays, hc, p, hp, hbuffer, hcount⟩

/-- With word characters on both sides of the head, the second listed transition is made and not
the first. -/
theorem Definition.second_listed_overrides_first :
    ofLines ["Q0:a/b->R:Q1", "Q0:a/c->L:Q2"] [] = .ok bothWays ∧
      (⟨"x", "Q0", "a", "y"⟩ : Configuration).WellFormed ∧
      Configuration.step? bothWays ⟨"x", "Q0", "a", "y"⟩ = some ⟨"xb", "Q1", "y", ""⟩ ∧
      ∃ p, bothWays.pattern = .ok p ∧
        ((Engine.ofBuffer p "x#Q0Q1Q2:abc-Q0:a#y").step false).1.buffer =
          "#Q0Q1Q2:abc-Q2:x#cy" ∧
        ¬ (Engine.ofBuffer p "x#Q0Q1Q2:abc-Q0:a#y").HasEffect ⟨bothWays, 0, "_"⟩
          ⟨"x", "Q0", "a", "y"⟩ (some ⟨"xb", "Q1", "y", ""⟩) := by
  have hc : (⟨"x", "Q0", "a", "y"⟩ : Configuration).WellFormed :=
    ⟨by decide, by decide, isState_zero, 'a', rfl⟩
  have hd := wellFormed_of_ofLines ofLines_bothWays
  obtain ⟨p, hp, happly⟩ := Tape.exists_pattern_leftmost ⟨bothWays, 0, "_"⟩ hd
  have hstart : Tape.encodeHead ⟨bothWays, 0, "_"⟩ ⟨"x", "Q0", "a", "y"⟩ =
      "x#Q0Q1Q2:abc-Q0:a#y" := by decide
  have hmove : Configuration.leftmostStep? bothWays ⟨"x", "Q0", "a", "y"⟩ =
      some ⟨"", "Q2", "x", "cy"⟩ := by decide
  have hend : Tape.encodeHead ⟨bothWays, 0, "_"⟩ ⟨"", "Q2", "x", "cy"⟩ =
      "#Q0Q1Q2:abc-Q2:x#cy" := by decide
  have hother : Tape.encodeHead ⟨bothWays, 0, "_"⟩ ⟨"xb", "Q1", "y", ""⟩ ≠
      "#Q0Q1Q2:abc-Q2:x#cy" := by decide
  have hstep := happly _ hc
  rw [hmove, hstart, Option.getD_some, hend] at hstep
  have hbuffer : ((Engine.ofBuffer p "x#Q0Q1Q2:abc-Q0:a#y").step false).1.buffer =
      "#Q0Q1Q2:abc-Q2:x#cy" := by
    rw [Engine.step_eq_of_apply hstep]
  refine ⟨ofLines_bothWays, hc, by decide, p, hp, hbuffer, fun heffect => ?_⟩
  exact hother (heffect.1.symm.trans hbuffer)

end SubstitutionAutomata
