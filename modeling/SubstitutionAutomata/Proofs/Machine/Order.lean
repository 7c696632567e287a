import SubstitutionAutomata.Proofs.Life.Compile
import SubstitutionAutomata.Proofs.Machine.LockStep
import Mathlib.Data.List.Perm.Basic

/-! # The order of rules

If no two transitions are for one state and one symbol, their order decides what head records list
and nothing else: the machines of two orders go through the same configurations. The clauses of a
rule of cells may stand in any order as well. -/

namespace SubstitutionAutomata

open Regex

variable {d d' : Definition} {t : Transition} {c : Configuration}

namespace Definition

/-- No two transitions are for one state and one symbol. -/
def Deterministic (d : Definition) : Prop :=
  (d.transitions.map fun t => (t.state, t.symbol)).Nodup

theorem Deterministic.perm (h : d.Deterministic)
    (hperm : d'.transitions.Perm d.transitions) : d'.Deterministic :=
  (hperm.map _).nodup_iff.mpr h

theorem Deterministic.eq_of_mem (h : d.Deterministic) {t' : Transition} (ht : t ∈ d.transitions)
    (ht' : t' ∈ d.transitions) (hstate : t.state = t'.state) (hsymbol : t.symbol = t'.symbol) :
    t = t' :=
  List.inj_on_of_nodup_map h ht ht' (by rw [hstate, hsymbol])

theorem Deterministic.sharesDirections (h : d.Deterministic) : d.SharesDirections := by
  intro t ht t' ht' hstate hsymbol
  rw [h.eq_of_mem ht ht' hstate hsymbol]

theorem Deterministic.transition?_eq_some_iff (h : d.Deterministic) (state symbol : String) :
    d.transition? state symbol = some t ↔
      t ∈ d.transitions ∧ t.state = state ∧ t.symbol = symbol := by
  refine ⟨transition?_spec, ?_⟩
  rintro ⟨ht, rfl, rfl⟩
  cases hfound : d.transition? t.state t.symbol with
  | none =>
      have hfails := List.find?_eq_none.mp hfound t ht
      simp at hfails
  | some t' =>
      obtain ⟨ht', hstate, hsymbol⟩ := transition?_spec hfound
      rw [h.eq_of_mem ht ht' hstate.symm hsymbol.symm]

/-- The table does not depend on the order of the transitions. -/
theorem Deterministic.transition?_eq_of_perm (h : d.Deterministic)
    (hperm : d'.transitions.Perm d.transitions) (state symbol : String) :
    d'.transition? state symbol = d.transition? state symbol := by
  apply Option.ext
  intro t
  rw [(h.perm hperm).transition?_eq_some_iff, h.transition?_eq_some_iff, hperm.mem_iff]

/-- Lines in another order define the transitions in another order. -/
theorem exists_ofLines_of_perm {lines lines' accepting : List String}
    (h : ofLines lines accepting = .ok d) (hperm : lines'.Perm lines) :
    ∃ d', ofLines lines' accepting = .ok d' ∧ d'.transitions.Perm d.transitions := by
  obtain ⟨ts, hread, hts⟩ := List.perm_comp_forall₂ hperm (forall₂_parse_of_ofLines h)
  cases ts with
  | nil => exact absurd hts.nil_eq.symm d.transitions_ne_nil
  | cons t ts =>
      refine ⟨⟨lines', t :: ts, firstSeen accepting, List.cons_ne_nil _ _⟩, ?_, hts⟩
      rw [ofLines, (mapM_parse_eq_ok_iff _ _).mpr hread]

end Definition

/-! ## Runs of both orders -/

namespace Configuration

theorem step?_eq_of_perm (h : d.Deterministic) (hperm : d'.transitions.Perm d.transitions)
    (c : Configuration) : c.step? d' = c.step? d := by
  rw [step?_eq_bind, step?_eq_bind, h.transition?_eq_of_perm hperm]

theorem after_eq_of_perm (h : d.Deterministic) (hperm : d'.transitions.Perm d.transitions)
    (n : ℕ) (c : Configuration) : c.after d' n = c.after d n := by
  induction n generalizing c with
  | zero => rfl
  | succ n ih => rw [after, after, step?_eq_of_perm h hperm, ih]

/-- No move takes the head onto a line feed, so a head that starts on none never stands on one. -/
theorem cursor_after_ne (hcursor : c.cursor ≠ "\n") (n : ℕ) : (c.after d n).cursor ≠ "\n" := by
  induction n generalizing c with
  | zero => exact hcursor
  | succ n ih =>
      rw [after]
      cases h : c.step? d with
      | none => exact ih hcursor
      | some c' =>
          obtain ⟨t, -, hmoves⟩ := exists_movesBy_of_step? h
          exact ih (cursor_ne_of_move? hmoves.move)

end Configuration

/-- An engine and its next count follow the table: what is read back after a number of steps is the
configuration of the table. -/
def Engine.Follows (tape : Tape) (c : Configuration) (e : Engine) : Prop :=
  ∀ n, tape.decode (e.after n).buffer = .ok (c.after tape.definition n) ∧
    ((e.after n).step false).2 =
      .ok (if ((c.after tape.definition n).step? tape.definition).isSome then 1 else 0)

/-- If transitions for one state and one symbol move the head to one side, engines follow the
table. -/
theorem Tape.exists_pattern_follows {lines accepting : List String}
    (hlines : Definition.ofLines lines accepting = .ok d) (hdirections : d.SharesDirections) :
    ∃ p, d.pattern = .ok p ∧ ∀ tape : Tape, tape.definition = d → ∀ c : Configuration,
      c.WellFormed → c.cursor ≠ "\n" →
        (Engine.ofBuffer p (tape.encodeHead c)).Follows tape c := by
  have hd := Definition.wellFormed_of_ofLines hlines
  obtain ⟨p, hp, -⟩ := d.exists_pattern
  refine ⟨p, hp, ?_⟩
  rintro tape rfl c hc hcursor n
  obtain ⟨q, hq, happly⟩ := tape.exists_pattern_apply hd hdirections
  obtain rfl := Except.ok.inj (hp.symm.trans hq)
  obtain ⟨hpattern, hbuffer, hafter⟩ := Engine.after_encodeHead tape hd happly n
    (Engine.ofBuffer p (tape.encodeHead c)) c rfl rfl hc
  refine ⟨?_, by rw [happly.step_eq hpattern hbuffer hafter]⟩
  rw [hbuffer, tape.decode_encodeHead hafter (Configuration.cursor_after_ne hcursor n)]

/-- Two engines read back alike after every number of steps and count alike in the next one. -/
def Engine.Agrees (tape tape' : Tape) (e e' : Engine) : Prop :=
  ∀ n, ∃ c count, tape.decode (e.after n).buffer = .ok c ∧
    tape'.decode (e'.after n).buffer = .ok c ∧
    ((e.after n).step false).2 = .ok count ∧ ((e'.after n).step false).2 = .ok count

theorem Engine.Follows.agrees {tape tape' : Tape} {e e' : Engine}
    (h : tape.definition.Deterministic)
    (hperm : tape'.definition.transitions.Perm tape.definition.transitions)
    (he : e.Follows tape c) (he' : e'.Follows tape' c) : e.Agrees tape tape' e' := by
  intro n
  obtain ⟨hread, hcount⟩ := he n
  obtain ⟨hread', hcount'⟩ := he' n
  rw [Configuration.after_eq_of_perm h hperm] at hread' hcount'
  rw [Configuration.step?_eq_of_perm h hperm] at hcount'
  exact ⟨_, _, hread, hread', hcount, hcount'⟩

/-- The order of rules matters neither to boards nor, if no two transitions are for one state and
one symbol, to machines. -/
theorem order_of_rules_is_irrelevant :
    (∀ (rule : Rule) (s : ℕ) (p : Pattern), 0 ∉ rule.birth → 3 ≤ s → rule.pattern s = .ok p →
      ∀ (clauses : List Clause) (names : List String), clauses.Perm p.clauses →
        names.Perm (p.clauses.flatMap Clause.captures) →
        p.template = String.join ((p.clauses.flatMap Clause.captures).map Template.reference) ∧
          ∃ p', Pattern.ofClauses clauses (String.join (names.map Template.reference)) = .ok p' ∧
            ∀ b, p'.apply b = p.apply b) ∧
      ∀ (lines lines' accepting : List String) (d : Definition),
        Definition.ofLines lines accepting = .ok d → d.Deterministic → lines'.Perm lines →
        ∃ d' p p', Definition.ofLines lines' accepting = .ok d' ∧
          d.pattern = .ok p ∧ d'.pattern = .ok p' ∧
          ∀ tape tape' : Tape, tape.definition = d → tape'.definition = d' →
            ∀ c : Configuration, c.WellFormed → c.cursor ≠ "\n" →
              (Engine.ofBuffer p (tape.encodeHead c)).Agrees tape tape'
                (Engine.ofBuffer p' (tape'.encodeHead c)) := by
  constructor
  · intro rule s p hbirth hs hp clauses names hclauses hnames
    exact Rule.pattern_order hbirth hs hp hclauses hnames
  · intro lines lines' accepting d hlines hd hperm
    obtain ⟨d', hlines', htransitions⟩ := Definition.exists_ofLines_of_perm hlines hperm
    obtain ⟨p, hp, hfollows⟩ := Tape.exists_pattern_follows hlines hd.sharesDirections
    obtain ⟨p', hp', hfollows'⟩ :=
      Tape.exists_pattern_follows hlines' (hd.perm htransitions).sharesDirections
    refine ⟨d', p, p', hlines', hp, hp', ?_⟩
    rintro tape tape' rfl rfl c hc hcursor
    exact (hfollows tape rfl c hc hcursor).agrees hd htransitions
      (hfollows' tape' rfl c hc hcursor)

/-- A head that moves to the right and back. -/
def Definition.backAndForth : Definition :=
  ⟨["Q0:a/b->R:Q1", "Q1:c/a->L:Q0"],
    [⟨"Q0", "a", "b", .right, "Q1"⟩, ⟨"Q1", "c", "a", .left, "Q0"⟩], [], List.cons_ne_nil _ _⟩

def Definition.forthAndBack : Definition :=
  ⟨["Q1:c/a->L:Q0", "Q0:a/b->R:Q1"],
    [⟨"Q1", "c", "a", .left, "Q0"⟩, ⟨"Q0", "a", "b", .right, "Q1"⟩], [], List.cons_ne_nil _ _⟩

/-- The Game of Life and a machine, both with their rules reversed. -/
theorem order_of_rules_is_irrelevant_reversed :
    (∃ p p', Rule.gameOfLife.pattern (3 : ℕ) = .ok p ∧
      Pattern.ofClauses p.clauses.reverse (String.join
        ((p.clauses.flatMap Clause.captures).reverse.map Template.reference)) = .ok p' ∧
      ∀ b, p'.apply b = p.apply b) ∧
    Definition.ofLines ["Q0:a/b->R:Q1", "Q1:c/a->L:Q0"] [] = .ok Definition.backAndForth ∧
      Definition.backAndForth.Deterministic ∧ (⟨"", "Q0", "a", "c"⟩ : Configuration).WellFormed ∧
      Definition.ofLines ["Q1:c/a->L:Q0", "Q0:a/b->R:Q1"] [] = .ok Definition.forthAndBack ∧
      ∃ p p', Definition.backAndForth.pattern = .ok p ∧ Definition.forthAndBack.pattern = .ok p' ∧
        (Engine.ofBuffer p "#Q0Q1:abc-Q0:a#c").Agrees ⟨Definition.backAndForth, 0, "_"⟩
          ⟨Definition.forthAndBack, 0, "_"⟩ (Engine.ofBuffer p' "#Q1Q0:cab-Q0:a#c") := by
  have hbirth : 0 ∉ Rule.gameOfLife.birth := by decide
  have hlimit : 3 < repeatLimit := by decide
  have hlines : Definition.ofLines ["Q0:a/b->R:Q1", "Q1:c/a->L:Q0"] [] =
      .ok Definition.backAndForth := by rfl
  have hreversed : Definition.ofLines ["Q1:c/a->L:Q0", "Q0:a/b->R:Q1"] [] =
      .ok Definition.forthAndBack := by rfl
  have hd : Definition.backAndForth.Deterministic := by
    unfold Definition.Deterministic
    decide
  have hc : (⟨"", "Q0", "a", "c"⟩ : Configuration).WellFormed :=
    ⟨by decide, by decide, isState_zero, 'a', rfl⟩
  refine ⟨?_, hlines, hd, hc, hreversed, ?_⟩
  · obtain ⟨p, hp, -⟩ := Rule.exists_pattern Rule.gameOfLife hbirth (Nat.le_refl 3) hlimit
    obtain ⟨-, p', hp', happly⟩ := order_of_rules_is_irrelevant.1 Rule.gameOfLife 3 p hbirth
      (Nat.le_refl 3) hp _ _ (List.reverse_perm _) (List.reverse_perm _)
    exact ⟨p, p', hp, hp', happly⟩
  · obtain ⟨d', p, p', hlines', hp, hp', hagrees⟩ := order_of_rules_is_irrelevant.2 _ _ _ _ hlines
      hd (List.reverse_perm ["Q0:a/b->R:Q1", "Q1:c/a->L:Q0"])
    obtain rfl : Definition.forthAndBack = d' := Except.ok.inj (hreversed.symm.trans hlines')
    have hagree := hagrees ⟨Definition.backAndForth, 0, "_"⟩ ⟨Definition.forthAndBack, 0, "_"⟩
      rfl rfl _ hc (by decide)
    have hstart : Tape.encodeHead ⟨Definition.backAndForth, 0, "_"⟩ ⟨"", "Q0", "a", "c"⟩ =
        "#Q0Q1:abc-Q0:a#c" := by decide
    have hstart' : Tape.encodeHead ⟨Definition.forthAndBack, 0, "_"⟩ ⟨"", "Q0", "a", "c"⟩ =
        "#Q1Q0:cab-Q0:a#c" := by decide
    rw [hstart, hstart'] at hagree
    exact ⟨p, p', hp, hp', hagree⟩

end SubstitutionAutomata
