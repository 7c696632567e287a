import SubstitutionAutomata.Proofs.Regex.Reading
import SubstitutionAutomata.Proofs.Regex.Template

/-! # Names of captures

A template can refer to any name that an expression may give to a capture. The captures of an
expression that was read have such names: a token opens no other capture, and closing a parenthesis
keeps the names inside. -/

namespace SubstitutionAutomata.Regex

/-! ## Numbered names -/

theorem isNameChar_of_isDigit {c : Char} (h : c.isDigit = true) : isNameChar c = true := by
  simp [isNameChar, Char.isAlphanum, h]

theorem isCaptureName_numbered {start : String} (h : IsCaptureName start) (i : ℕ) :
    IsCaptureName (start ++ toString i) := by
  rw [IsCaptureName] at h ⊢
  rw [String.toList_append, Template.toList_toString_nat]
  have hdigits : (Nat.toDigits 10 i).all isNameChar = true := by
    refine List.all_eq_true.mpr fun d hd => isNameChar_of_isDigit ?_
    exact Nat.isDigit_of_mem_toDigits (by decide) (by decide) hd
  cases hlist : start.toList with
  | nil => simp [hlist, isName] at h
  | cons c rest =>
      rw [hlist, isName] at h
      rw [List.cons_append, isName, ← List.cons_append, List.all_append, hdigits, Bool.and_true]
      exact h

theorem IsCaptureName.referable {name : String} (h : IsCaptureName name) :
    Template.Referable name := by
  refine ⟨h.bracket_not_mem, ?_⟩
  rintro rfl
  exact absurd h (by decide)

/-! ## Tokens -/

theorem isCaptureName_of_mem_tokens {name : String} {j : ℕ} :
    (∀ i s, (j, .opening (.capture name)) ∈ tokens i s → IsCaptureName name) ∧
      (∀ start i read s, (j, .opening (.capture name)) ∈ nameTokens start i read s →
        IsCaptureName name) ∧
      ∀ start i count s, (j, .opening (.capture name)) ∈ countTokens start i count s →
        IsCaptureName name := by
  apply tokens.mutual_induct
  -- the bracket that ends a name
  case case17 =>
    intro start i read rest ih h
    rw [nameTokens, List.mem_cons] at h
    rcases h with h | h
    · by_cases hname : isName read = true
      · rw [if_pos hname, Prod.mk.injEq, Token.opening.injEq, Opening.capture.injEq] at h
        rw [h.2, IsCaptureName, String.toList_ofList]
        exact hname
      · rw [if_neg hname] at h
        cases h
    · exact ih h
  all_goals
    intros
    simp_all [tokens, nameTokens, countTokens]
  case case3 | case15 => grind

/-! ## Frames -/

/-- Every capture has a name that a template can refer to. -/
def Named (r : Regex) : Prop := ∀ name ∈ r.names, IsCaptureName name

theorem named_of_names_eq_nil {r : Regex} (h : r.names = []) : r.Named := by
  rw [Named, h]
  exact List.forall_mem_nil _

theorem named_concat {items : List Regex} (h : ∀ r ∈ items, r.Named) : (concat items).Named := by
  intro name hname
  rw [names_concat, List.mem_flatMap] at hname
  obtain ⟨r, hr, hname⟩ := hname
  exact h r hr name hname

theorem named_choice {rs : List Regex} (h : ∀ r ∈ rs, r.Named) : (choice rs).Named := by
  intro name hname
  rw [names_choice, List.mem_flatMap] at hname
  obtain ⟨r, hr, hname⟩ := hname
  exact h r hr name hname

structure Frame.Named (frame : Frame) : Prop where
  kind : ∀ name, frame.kind = .capture name → IsCaptureName name
  alternatives : ∀ r ∈ frame.alternatives, r.Named
  items : ∀ r ∈ frame.items, r.Named

namespace Frame.Named

variable {frame : Frame}

theorem push (h : frame.Named) {r : Regex} (hr : r.Named) : (frame.push r).Named :=
  ⟨h.kind, h.alternatives, List.forall_mem_cons.mpr ⟨hr, h.items⟩⟩

theorem nextAlternative (h : frame.Named) : frame.nextAlternative.Named := by
  refine ⟨h.kind, List.forall_mem_cons.mpr ⟨?_, h.alternatives⟩, List.forall_mem_nil _⟩
  exact named_concat fun r hr => h.items r (List.mem_reverse.mp hr)

theorem body (h : frame.Named) : frame.body.Named :=
  named_choice fun r hr => h.nextAlternative.alternatives r (List.mem_reverse.mp hr)

theorem close (h : frame.Named) : frame.close.Named := by
  rw [Frame.close]
  split
  case h_3 name hkind =>
    intro other hother
    rcases List.mem_cons.mp hother with rfl | hother
    · exact h.kind _ hkind
    · exact h.body other hother
  all_goals exact h.body

end Frame.Named

/-- Frames hold named captures only, if all captures that open have names. -/
theorem named_of_parseTokens {top : Frame} {outer : List Frame} {numbering : Numbering}
    {ts : List (ℕ × Token)} {r : Regex} (htop : top.Named) (houter : ∀ frame ∈ outer, frame.Named)
    (hts : ∀ t ∈ ts, ∀ name, t.2 = .opening (.capture name) → IsCaptureName name)
    (h : parseTokens top outer numbering ts = .ok r) : r.Named := by
  fun_induction parseTokens top outer numbering ts with
  | case1 top => exact Except.ok.inj h ▸ htop.body
  | case2 | case3 | case5 | case8 | case9 => cases h
  -- a parenthesis opens
  | case4 top outer _ i kind _ _ _ ih =>
      obtain ⟨hopen, hts⟩ := List.forall_mem_cons.mp hts
      refine ih ⟨?_, by simp, by simp⟩ (List.forall_mem_cons.mpr ⟨htop, houter⟩) hts h
      rintro name rfl
      exact hopen name rfl
  -- a parenthesis closes
  | case6 top _ _ _ parent outer ih =>
      obtain ⟨hparent, houter⟩ := List.forall_mem_cons.mp houter
      exact ih (hparent.push htop.close) houter (List.forall_mem_cons.mp hts).2 h
  | case7 top _ _ _ _ ih =>
      exact ih htop.nextAlternative houter (List.forall_mem_cons.mp hts).2 h
  | case10 _ _ _ _ _ _ _ ih | case11 _ _ _ _ _ _ ih | case12 _ _ _ _ _ ih
  | case13 _ _ _ _ _ ih | case14 _ _ _ _ _ ih =>
      exact ih (htop.push (named_of_names_eq_nil rfl)) houter (List.forall_mem_cons.mp hts).2 h

theorem named_of_parse {s : List Char} {r : Regex} (h : parse s = .ok r) : r.Named := by
  rw [parse] at h
  split at h
  · cases h
  · rename_i r' hr
    split at h
    · obtain rfl := Except.ok.inj h
      refine named_of_parseTokens ⟨by simp, by simp, by simp⟩ (by simp) ?_ hr
      rintro ⟨j, _⟩ hmem name rfl
      exact isCaptureName_of_mem_tokens.1 0 s hmem
    · cases h

end SubstitutionAutomata.Regex
