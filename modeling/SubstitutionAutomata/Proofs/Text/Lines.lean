import SubstitutionAutomata.Text.Lines
import Mathlib.Data.List.Basic

/-! # Texts with mixed line breaks

The lines of a text are the pieces between its breaks, whatever the breaks are. Lines that are
joined by breaks of any kind are the lines of the joined text, if none is empty or holds a break. -/

namespace SubstitutionAutomata.Text

/-- All that ends a line. -/
def lineBreaks : List String :=
  ["\n", "\r\n", "\r", "\x0b", "\x0c", "\x1c", "\x1d", "\x1e", "\u0085", "\u2028", "\u2029"]

/-- The pieces of a text between its breaks. A carriage return and a line feed after it are one
break, and the last line may end without a break unless it is empty. -/
inductive Cut : List Char → List (List Char) → Prop where
  | nil : Cut [] []
  | last {line : List Char} (hne : line ≠ []) (hline : ∀ c ∈ line, isBreak c = false) :
      Cut line [line]
  | cons {line s : List Char} {lines : List (List Char)} {ending : String}
      (hline : ∀ c ∈ line, isBreak c = false) (hending : ending ∈ lineBreaks)
      (hreturn : ending = "\r" → s.head? ≠ some '\n') (rest : Cut s lines) :
      Cut (line ++ (ending.toList ++ s)) (line :: lines)

/-! ## The reader follows the cut -/

theorem isBreak_return : isBreak '\r' = true := by decide

theorem joinReturns_cons_of_ne {c : Char} (h : c ≠ '\r') (s : List Char) :
    joinReturns (c :: s) = c :: joinReturns s := by
  rw [joinReturns]
  · exact fun _ hc _ => h hc
  · exact h

theorem joinReturns_return {s : List Char} (h : s.head? ≠ some '\n') :
    joinReturns ('\r' :: s) = '\n' :: joinReturns s := by
  rw [joinReturns]
  rintro rest rfl
  exact h rfl

theorem joinReturns_append {line : List Char} (hline : ∀ c ∈ line, isBreak c = false)
    (s : List Char) : joinReturns (line ++ s) = line ++ joinReturns s := by
  induction line with
  | nil => rfl
  | cons c line ih =>
      have hc : c ≠ '\r' := by
        rintro rfl
        exact absurd (hline '\r' List.mem_cons_self) (by simp [isBreak_return])
      rw [List.cons_append, joinReturns_cons_of_ne hc,
        ih fun c hc => hline c (List.mem_cons_of_mem _ hc), List.cons_append]

/-- Every break is read as one character that ends a line. -/
theorem exists_joinReturns_ending {ending : String} (h : ending ∈ lineBreaks) {s : List Char}
    (hreturn : ending = "\r" → s.head? ≠ some '\n') :
    ∃ c, isBreak c = true ∧ joinReturns (ending.toList ++ s) = c :: joinReturns s := by
  by_cases hr : ending = "\r"
  · subst hr
    exact ⟨'\n', by decide, joinReturns_return (hreturn rfl)⟩
  by_cases hrn : ending = "\r\n"
  · subst hrn
    exact ⟨'\n', by decide, by simp [joinReturns]⟩
  obtain ⟨c, hc, hbreak, hne⟩ : ∃ c, ending.toList = [c] ∧ isBreak c = true ∧ c ≠ '\r' := by
    simp only [lineBreaks, List.mem_cons, List.not_mem_nil, or_false, hr, hrn, false_or] at h
    rcases h with rfl | rfl | rfl | rfl | rfl | rfl | rfl | rfl | rfl <;>
      exact ⟨_, rfl, by decide, by decide⟩
  refine ⟨c, hbreak, ?_⟩
  rw [hc, List.singleton_append, joinReturns_cons_of_ne hne]

theorem splitBreaks_of_forall {line : List Char} (hline : ∀ c ∈ line, isBreak c = false)
    (hne : line ≠ []) : splitBreaks line = [line] := by
  induction line with
  | nil => exact absurd rfl hne
  | cons c line ih =>
      have hc := hline c List.mem_cons_self
      cases line with
      | nil => simp [splitBreaks, hc]
      | cons c' line =>
          rw [splitBreaks, if_neg (by simp [hc]),
            ih (fun c hc => hline c (List.mem_cons_of_mem _ hc)) (List.cons_ne_nil _ _)]

theorem splitBreaks_append {line : List Char} (hline : ∀ c ∈ line, isBreak c = false) {c : Char}
    (hc : isBreak c = true) (s : List Char) :
    splitBreaks (line ++ c :: s) = line :: splitBreaks s := by
  induction line with
  | nil => simp [splitBreaks, hc]
  | cons c' line ih =>
      have hc' := hline c' List.mem_cons_self
      rw [List.cons_append, splitBreaks, if_neg (by simp [hc']),
        ih fun c hc => hline c (List.mem_cons_of_mem _ hc)]

theorem Cut.splitBreaks_eq {s : List Char} {lines : List (List Char)} (h : Cut s lines) :
    splitBreaks (joinReturns s) = lines := by
  induction h with
  | nil => rfl
  | @last line hne hline =>
      rw [← List.append_nil line, joinReturns_append hline, joinReturns, List.append_nil,
        splitBreaks_of_forall hline hne]
  | cons hline hending hreturn _ ih =>
      obtain ⟨c, hc, hjoin⟩ := exists_joinReturns_ending hending hreturn
      rw [joinReturns_append hline, hjoin, splitBreaks_append hline hc, ih]

/-! ## Every text has a cut -/

theorem exists_ofNat_of_isBreak {c : Char} (h : isBreak c = true) :
    ∃ n ∈ [0x0a, 0x0b, 0x0c, 0x0d, 0x1c, 0x1d, 0x1e, 0x85, 0x2028, 0x2029], c = Char.ofNat n := by
  refine ⟨c.toNat, ?_, (Char.ofNat_toNat c).symm⟩
  simp only [isBreak, Bool.or_eq_true, Bool.and_eq_true, decide_eq_true_eq, beq_iff_eq] at h
  simp only [List.mem_cons, List.not_mem_nil, or_false]
  omega

theorem toString_mem_lineBreaks {c : Char} (h : isBreak c = true) : c.toString ∈ lineBreaks := by
  obtain ⟨n, hn, rfl⟩ := exists_ofNat_of_isBreak h
  revert n
  decide

theorem Cut.exists_cons {c : Char} (hc : isBreak c = false) {s : List Char}
    {lines : List (List Char)} (h : Cut s lines) : ∃ lines', Cut (c :: s) lines' := by
  have hcons : ∀ line : List Char, (∀ c ∈ line, isBreak c = false) →
      ∀ x ∈ c :: line, isBreak x = false :=
    fun line hline => List.forall_mem_cons.mpr ⟨hc, hline⟩
  cases h with
  | nil => exact ⟨_, .last (List.cons_ne_nil c []) (hcons [] (by simp))⟩
  | last _ hline => exact ⟨_, .last (List.cons_ne_nil c s) (hcons s hline)⟩
  | @cons line _ _ _ hline hending hreturn rest =>
      exact ⟨_, .cons (hcons line hline) hending hreturn rest⟩

theorem exists_cut (s : List Char) : ∃ lines, Cut s lines := by
  fun_induction joinReturns s with
  | case1 => exact ⟨[], .nil⟩
  | case2 rest ih =>
      obtain ⟨lines, hrest⟩ := ih
      have hreturn : "\r\n" = "\r" → rest.head? ≠ some '\n' := fun h => absurd h (by decide)
      exact ⟨_, .cons (List.forall_mem_nil _) (by decide) hreturn hrest⟩
  | case3 rest hfeed ih =>
      obtain ⟨lines, hrest⟩ := ih
      have hreturn : "\r" = "\r" → rest.head? ≠ some '\n' := fun _ h => by
        obtain ⟨s, rfl⟩ := List.head?_eq_some_iff.mp h
        exact hfeed s rfl
      exact ⟨_, .cons (List.forall_mem_nil _) (by decide) hreturn hrest⟩
  | case4 c rest _ hc ih =>
      obtain ⟨lines, hrest⟩ := ih
      by_cases hbreak : isBreak c = true
      · have hne : c.toString ≠ "\r" := fun h => by
          have hlist := congrArg String.toList h
          simp only [Char.toString, String.toList_singleton] at hlist
          exact hc (List.cons.inj hlist).1
        have hcut := Cut.cons (List.forall_mem_nil _) (toString_mem_lineBreaks hbreak)
          (fun h => absurd h hne) hrest
        rw [Char.toString, String.toList_singleton] at hcut
        exact ⟨_, hcut⟩
      · exact hrest.exists_cons (by simpa using hbreak)

/-- The lines of a text are its cut. -/
theorem lines_eq_iff (text : String) (lines : List String) :
    Text.lines text = lines ↔ Cut text.toList (lines.map String.toList) := by
  rw [Text.lines]
  constructor
  · rintro rfl
    obtain ⟨pieces, hpieces⟩ := exists_cut text.toList
    simpa [hpieces.splitBreaks_eq, Function.comp_def] using hpieces
  · intro h
    simp [h.splitBreaks_eq, Function.comp_def]

/-! ## Joined lines -/

/-- Lines with a break of any kind after each; the last one may be missing. -/
inductive Joined : List String → String → Prop where
  | last (line ending : String) (hending : ending = "" ∨ ending ∈ lineBreaks) :
      Joined [line] (line ++ ending)
  | cons (line ending : String) {text : String} {lines : List String}
      (hending : ending ∈ lineBreaks) (rest : Joined lines text) :
      Joined (line :: lines) (line ++ ending ++ text)

theorem Joined.ne_nil {lines : List String} {text : String} (h : Joined lines text) :
    lines ≠ [] := by
  cases h <;> exact List.cons_ne_nil _ _

theorem Joined.head? {lines : List String} {text : String} (h : Joined lines text)
    (hne : ∀ line ∈ lines, line ≠ "") :
    ∃ line ∈ lines, ∃ c ∈ line.toList, text.toList.head? = some c := by
  have hhead : ∀ line rest : String, line ≠ "" →
      ∃ c ∈ line.toList, (line ++ rest).toList.head? = some c := by
    intro line rest hline
    cases hs : line.toList with
    | nil => exact absurd (String.toList_eq_nil_iff.mp hs) hline
    | cons c s => exact ⟨c, List.mem_cons_self, by simp [hs]⟩
  cases h with
  | last line _ _ =>
      exact ⟨line, List.mem_singleton_self _, hhead line _ (hne line (List.mem_singleton_self _))⟩
  | cons line _ _ _ =>
      rw [String.append_assoc]
      exact ⟨line, List.mem_cons_self, hhead line _ (hne line List.mem_cons_self)⟩

/-- Lines that hold a character and no break are the cut of the text that joins them. -/
theorem Joined.cut {lines : List String} {text : String} (h : Joined lines text)
    (hne : ∀ line ∈ lines, line ≠ "")
    (hlines : ∀ line ∈ lines, ∀ c ∈ line.toList, isBreak c = false) :
    Cut text.toList (lines.map String.toList) := by
  induction h with
  | last line ending hending =>
      have hline := hlines line (List.mem_singleton_self _)
      have hnil : line.toList ≠ [] := fun h =>
        hne line (List.mem_singleton_self _) (String.toList_eq_nil_iff.mp h)
      rcases hending with rfl | hending
      · simpa using Cut.last hnil hline
      · simpa using Cut.cons hline hending (by simp) .nil
  | @cons line ending text lines hending rest ih =>
      have hcut := ih (fun l hl => hne l (List.mem_cons_of_mem _ hl))
        fun l hl => hlines l (List.mem_cons_of_mem _ hl)
      -- The next line begins with no line feed, so a lone carriage return stays a break of its own.
      have hreturn : text.toList.head? ≠ some '\n' := by
        obtain ⟨l, hl, c, hc, hhead⟩ := rest.head? fun l hl => hne l (List.mem_cons_of_mem _ hl)
        rw [hhead]
        rintro h
        obtain rfl := Option.some.inj h
        exact absurd (hlines l (List.mem_cons_of_mem _ hl) '\n' hc) (by decide)
      simpa using Cut.cons (hlines line List.mem_cons_self) hending (fun _ => hreturn) hcut

theorem Joined.lines_eq {lines : List String} {text : String} (h : Joined lines text)
    (hne : ∀ line ∈ lines, line ≠ "")
    (hlines : ∀ line ∈ lines, ∀ c ∈ line.toList, isBreak c = false) : Text.lines text = lines :=
  (lines_eq_iff text lines).mpr (h.cut hne hlines)

end SubstitutionAutomata.Text
