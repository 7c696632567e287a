import SubstitutionAutomata.Machine.Transition
import Mathlib.Data.List.TakeWhile

/-! # Written transitions

A line is read as a transition exactly if it follows the grammar, and what was read is written as
this line again. The states of a transition that was read are a Q with digits, and its symbols are
single word characters. -/

namespace SubstitutionAutomata

open Text

/-- A Q with decimal digits. -/
def IsState (s : String) : Prop :=
  ∃ digits, s.toList = 'Q' :: digits ∧ digits ≠ [] ∧ ∀ c ∈ digits, isDigit c = true

/-- A single word character. -/
def IsSymbol (s : String) : Prop := ∃ c, s = c.toString ∧ isWord c = true

theorem not_isDigit_colon : isDigit ':' = false := by decide

theorem isState_zero : IsState "Q0" :=
  ⟨['0'], by rfl, List.cons_ne_nil _ _, by simpa using isDigit_of_ascii '0' (by decide)⟩

theorem IsState.colon_not_mem {s : String} (h : IsState s) : ':' ∉ s.toList := by
  obtain ⟨digits, hs, -, hdigits⟩ := h
  rw [hs, List.mem_cons]
  rintro (hq | hmem)
  · cases hq
  · exact absurd (hdigits ':' hmem) (by simp [not_isDigit_colon])

namespace Transition

/-- What a written transition always satisfies. -/
structure WellFormed (t : Transition) : Prop where
  state : IsState t.state
  symbol : IsSymbol t.symbol
  written : IsSymbol t.written
  next : IsState t.next

/-! ## The grammar of lines -/

/-- A line is a Q with decimal digits, a colon, the word character that is read, a slash, the one
that is written, an arrow, the letter L or R, a colon, and again a Q with decimal digits. -/
inductive Written : String → Transition → Prop where
  | line (digits digits' : List Char) (x y letter : Char) (direction : Direction)
      (hne : digits ≠ []) (hdigits : ∀ c ∈ digits, isDigit c = true)
      (hx : isWord x = true) (hy : isWord y = true)
      (hletter : letter = 'L' ∧ direction = .left ∨ letter = 'R' ∧ direction = .right)
      (hne' : digits' ≠ []) (hdigits' : ∀ c ∈ digits', isDigit c = true) :
      Written
        (String.ofList ('Q' :: (digits ++
          ':' :: x :: '/' :: y :: '-' :: '>' :: letter :: ':' :: 'Q' :: digits')))
        ⟨String.ofList ('Q' :: digits), x.toString, y.toString, direction,
          String.ofList ('Q' :: digits')⟩

variable {line : String} {t : Transition}

theorem direction?_eq_some_iff (letter : Char) (direction : Direction) :
    direction? letter = some direction ↔
      letter = 'L' ∧ direction = .left ∨ letter = 'R' ∧ direction = .right := by
  unfold direction?
  split
  · simp [eq_comm]
  · simp [eq_comm]
  · rename_i hl hr
    exact iff_of_false (fun h => by cases h) fun h => h.elim (fun h => hl h.1) fun h => hr h.1

theorem written_of_parse? (h : parse? line = some t) : Written line t := by
  unfold parse? at h
  split at h
  · rename_i afterQ hline
    split at h
    · rename_i x y letter digits' hafter
      split at h
      · rename_i direction hletter
        dsimp only at h
        split at h
        · rename_i hvalid
          obtain rfl := Option.some.inj h
          simp only [Bool.and_eq_true, Bool.not_eq_true', List.isEmpty_eq_false_iff,
            List.all_eq_true] at hvalid
          obtain ⟨⟨⟨⟨hne, hx⟩, hy⟩, hne'⟩, hdigits'⟩ := hvalid
          have hwritten := Written.line _ digits' x y letter direction hne
            (fun _ hc => List.mem_takeWhile_imp hc) hx hy
            ((direction?_eq_some_iff letter direction).mp hletter) hne' hdigits'
          rwa [← hafter, List.takeWhile_append_dropWhile, ← hline, String.ofList_toList] at hwritten
        · cases h
      · cases h
    · cases h
  · cases h

theorem Written.parse? (h : Written line t) : parse? line = some t := by
  cases h with
  | line digits digits' x y letter direction hne hdigits hx hy hletter hne' hdigits' =>
      -- The digits end where the first colon stands.
      have htake : (digits ++ ':' :: x :: '/' :: y :: '-' :: '>' :: letter :: ':' :: 'Q' ::
          digits').takeWhile isDigit = digits := by
        rw [List.takeWhile_append_of_pos hdigits,
          List.takeWhile_cons_of_neg (by simp [not_isDigit_colon]), List.append_nil]
      have hdrop : (digits ++ ':' :: x :: '/' :: y :: '-' :: '>' :: letter :: ':' :: 'Q' ::
          digits').dropWhile isDigit =
            ':' :: x :: '/' :: y :: '-' :: '>' :: letter :: ':' :: 'Q' :: digits' := by
        rw [List.dropWhile_append_of_pos hdigits,
          List.dropWhile_cons_of_neg (by simp [not_isDigit_colon])]
      simp only [Transition.parse?, String.toList_ofList, htake, hdrop,
        (direction?_eq_some_iff letter direction).mpr hletter]
      rw [if_pos]
      simpa [hne, hx, hy, hne'] using hdigits'

/-- Reading follows the grammar. -/
theorem parse?_eq_some_iff (line : String) (t : Transition) :
    parse? line = some t ↔ Written line t :=
  ⟨written_of_parse?, Written.parse?⟩

theorem parse_eq_ok_iff (line : String) (t : Transition) :
    parse line = .ok t ↔ Written line t := by
  rw [← parse?_eq_some_iff, parse]
  cases parse? line <;> simp

/-- What is not read is refused with the line. -/
theorem parse_eq_error_iff (line : String) (e : Malformed) :
    parse line = .error e ↔ e = ⟨line⟩ ∧ ∀ t, ¬ Written line t := by
  simp only [← parse?_eq_some_iff, parse]
  cases parse? line <;> simp [eq_comm]

/-! ## What was read -/

theorem toList_text (t : Transition) :
    t.text.toList = t.state.toList ++ ':' :: (t.symbol.toList ++ '/' :: (t.written.toList ++
      '-' :: '>' :: (t.direction.text.toList ++ ':' :: t.next.toList))) := by
  change (t.state ++ ":" ++ t.symbol ++ "/" ++ t.written ++ "->" ++ t.direction.text ++ ":" ++
    t.next).toList = _
  simp

/-- A transition that was read is written as its line. -/
theorem Written.text_eq (h : Written line t) : t.text = line := by
  cases h with
  | line digits digits' x y letter direction _ _ _ _ hletter =>
      apply String.toList_injective
      rcases hletter with ⟨rfl, rfl⟩ | ⟨rfl, rfl⟩ <;>
        simp [toList_text, Char.toString, Direction.text]

theorem Written.wellFormed (h : Written line t) : t.WellFormed := by
  cases h with
  | line digits digits' x y letter direction hne hdigits hx hy _ hne' hdigits' =>
      exact ⟨⟨digits, String.toList_ofList, hne, hdigits⟩, ⟨x, rfl, hx⟩, ⟨y, rfl, hy⟩,
        ⟨digits', String.toList_ofList, hne', hdigits'⟩⟩

/-- A letter other than L and R is no direction of a written transition. -/
theorem Written.direction (h : Written line t) : t.direction = .left ∨ t.direction = .right := by
  cases h with
  | line _ _ _ _ _ _ _ _ _ _ hletter => exact hletter.imp And.right And.right

/-- Transitions of the form of those that are read are written by the grammar. -/
theorem WellFormed.written_text (h : t.WellFormed)
    (hdirection : t.direction = .left ∨ t.direction = .right) : Written t.text t := by
  obtain ⟨digits, hstate, hne, hdigits⟩ := h.state
  obtain ⟨x, hsymbol, hx⟩ := h.symbol
  obtain ⟨y, hwritten, hy⟩ := h.written
  obtain ⟨digits', hnext, hne', hdigits'⟩ := h.next
  obtain ⟨letter, hletter⟩ : ∃ letter, letter = 'L' ∧ t.direction = .left ∨
      letter = 'R' ∧ t.direction = .right :=
    hdirection.elim (fun h => ⟨'L', .inl ⟨rfl, h⟩⟩) fun h => ⟨'R', .inr ⟨rfl, h⟩⟩
  have hline := Written.line digits digits' x y letter t.direction hne hdigits hx hy hletter hne'
    hdigits'
  rw [← hstate, ← hnext, String.ofList_toList, String.ofList_toList, ← hsymbol, ← hwritten]
    at hline
  exact hline.text_eq ▸ hline

theorem wellFormed_of_parse? (h : parse? line = some t) : t.WellFormed :=
  (written_of_parse? h).wellFormed

theorem direction_of_parse? (h : parse? line = some t) :
    t.direction = .left ∨ t.direction = .right :=
  (written_of_parse? h).direction

/-- A line is read exactly if it follows the grammar, as the transition that is written as this
line, and is reported otherwise. Every transition of the form of those that are read is read back
from its text. -/
theorem reads_exactly_its_grammar :
    (∀ line t, parse line = .ok t ↔ Written line t) ∧
      (∀ line t, Written line t → t.text = line) ∧
      (∀ line e, parse line = .error e ↔ e = ⟨line⟩ ∧ ∀ t, ¬ Written line t) ∧
      ∀ t : Transition, t.WellFormed → t.direction = .left ∨ t.direction = .right →
        parse t.text = .ok t := by
  refine ⟨parse_eq_ok_iff, fun _ _ h => h.text_eq, parse_eq_error_iff, ?_⟩
  intro t h hdirection
  exact (parse_eq_ok_iff _ _).mpr (h.written_text hdirection)

/-- Digits of two scripts, and a symbol that is no letter of the alphabet. -/
theorem reads_exactly_its_grammar_scripts :
    Written "Q１٣:字/_->L:Q10" ⟨"Q１٣", "字", "_", .left, "Q10"⟩ ∧
      parse "Q１٣:字/_->L:Q10" = .ok ⟨"Q１٣", "字", "_", .left, "Q10"⟩ ∧
      (⟨"Q１٣", "字", "_", .left, "Q10"⟩ : Transition).WellFormed ∧
      (⟨"Q１٣", "字", "_", .left, "Q10"⟩ : Transition).text = "Q１٣:字/_->L:Q10" ∧
      parse (⟨"Q１٣", "字", "_", .left, "Q10"⟩ : Transition).text =
        .ok ⟨"Q１٣", "字", "_", .left, "Q10"⟩ ∧
      parse "Q１٣:字/_->L:Q10\n" = .error ⟨"Q１٣:字/_->L:Q10\n"⟩ := by
  obtain ⟨hread, htext, hrefused, hback⟩ := reads_exactly_its_grammar
  have hdigits : ['１', '٣'].all isDigit = true := by decide +kernel
  have hdigits' : ['1', '0'].all isDigit = true := by decide +kernel
  have hwritten : Written "Q１٣:字/_->L:Q10" ⟨"Q１٣", "字", "_", .left, "Q10"⟩ :=
    .line ['１', '٣'] ['1', '0'] '字' '_' 'L' .left (by decide) (List.all_eq_true.mp hdigits)
      (by decide +kernel) (by decide +kernel) (by decide) (by decide) (List.all_eq_true.mp hdigits')
  have hfeed : ∀ t, ¬ Written "Q１٣:字/_->L:Q10\n" t := by
    have hnone : parse? "Q１٣:字/_->L:Q10\n" = none := by decide +kernel
    intro t h
    rw [← parse?_eq_some_iff, hnone] at h
    cases h
  refine ⟨hwritten, (hread _ _).mpr hwritten, hwritten.wellFormed, htext _ _ hwritten,
    hback _ hwritten.wellFormed (.inl rfl), (hrefused _ _).mpr ⟨rfl, hfeed⟩⟩

end Transition

end SubstitutionAutomata
