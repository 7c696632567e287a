import SubstitutionAutomata.Regex.Template
import Mathlib.Data.List.Basic

/-! # Templates of escaped text and references

Escaped text reads as its characters and a reference reads as its capture, whatever follows. -/

namespace SubstitutionAutomata.Regex.Template

/-! ## Reading -/

theorem parts_cons_of_ne (c : Char) (rest : List Char) (h : c ≠ '\\') :
    parts (c :: rest) = .char c :: parts rest := by
  rw [parts]
  · exact fun _ hc => absurd hc h
  · exact fun _ hc => absurd hc h

theorem parts_escapeBackslashes_append (s rest : List Char) :
    parts (escapeBackslashes s ++ rest) = s.map .char ++ parts rest := by
  induction s with
  | nil => rfl
  | cons c s ih =>
      by_cases h : c = '\\'
      · simp only [escapeBackslashes, h, if_true, List.cons_append, parts, ih, List.map_cons]
      · rw [escapeBackslashes, if_neg h, List.cons_append, parts_cons_of_ne c _ h, ih]
        rfl

theorem referenceParts_append (before name rest : List Char) (h : '>' ∉ name) :
    referenceParts before (name ++ '>' :: rest) = referenced (before ++ name) :: parts rest := by
  induction name generalizing before with
  | nil => simp [referenceParts]
  | cons c name ih =>
      have hc : c ≠ '>' := by
        rintro rfl
        simp at h
      rw [List.cons_append, referenceParts, ih _ (by simp_all), List.append_assoc]
      · rfl
      · exact hc

/-- Names that a reference reads back: no bracket ends them early, and none means the whole match.
-/
def Referable (name : String) : Prop := '>' ∉ name.toList ∧ name ≠ "0"

theorem toList_reference (name : String) :
    (reference name).toList = '\\' :: 'g' :: '<' :: name.toList ++ ['>'] := by
  change ("\\g<" ++ name ++ ">").toList = _
  simp

theorem parts_reference_append (name : String) (rest : List Char) (h : Referable name) :
    parts ((reference name).toList ++ rest) = .capture name :: parts rest := by
  have hne : name.toList ≠ ['0'] := fun he => h.2 (String.toList_inj.mp he)
  have hread := referenceParts_append [] name.toList rest h.1
  simpa [toList_reference, parts, referenced, hne] using hread

/-! ## Items -/

/-- What a template is put together from: texts to be taken as they are, and references. -/
inductive Item where
  | text (s : String)
  | reference (name : String)
  deriving DecidableEq, Repr

namespace Item

def written : Item → String
  | text s => escape s
  | reference name => Template.reference name

def parts : Item → Template
  | text s => s.toList.map .char
  | reference name => [.capture name]

/-- What an item stands for where a match is replaced. -/
def value (buffer : Array Char) (m : Match) : Item → List Char
  | text s => s.toList
  | reference name => m.captured buffer name

theorem parts_written_append (item : Item) (rest : List Char)
    (h : ∀ name, item = reference name → Referable name) :
    Template.parts (item.written.toList ++ rest) = item.parts ++ Template.parts rest := by
  cases item with
  | text s => simpa [written, escape, parts] using parts_escapeBackslashes_append s.toList rest
  | reference name => exact parts_reference_append name rest (h name rfl)

/-- No item joins with the item after it, or with any other text. -/
theorem parts_join_written_append (items : List Item) (rest : List Char)
    (h : ∀ name, reference name ∈ items → Referable name) :
    Template.parts ((String.join (items.map written)).toList ++ rest) =
      items.flatMap parts ++ Template.parts rest := by
  induction items with
  | nil => simp
  | cons item items ih =>
      have hitem : ∀ name, item = reference name → Referable name := by
        rintro name rfl
        exact h name List.mem_cons_self
      have hitems : ∀ name, reference name ∈ items → Referable name :=
        fun name hname => h name (List.mem_cons_of_mem item hname)
      rw [List.map_cons, String.join_cons, String.toList_append, List.append_assoc,
        parts_written_append item _ hitem, ih hitems, List.flatMap_cons, List.append_assoc]

theorem parts_join_written (items : List Item)
    (h : ∀ name, reference name ∈ items → Referable name) :
    Template.parts (String.join (items.map written)).toList = items.flatMap parts := by
  have hread := parts_join_written_append items [] h
  rwa [List.append_nil, Template.parts, List.append_nil] at hread

theorem capture_mem_flatMap_parts (items : List Item) (name : String) :
    .capture name ∈ items.flatMap parts ↔ reference name ∈ items := by
  rw [List.mem_flatMap]
  constructor
  · rintro ⟨item, hitem, hname⟩
    cases item with
    | text s => simp [parts] at hname
    | reference other =>
        obtain rfl : name = other := by simpa [parts] using hname
        exact hitem
  · exact fun hname => ⟨_, hname, by simp [parts]⟩

theorem flatMap_parts_references (names : List String) :
    (names.map reference).flatMap parts = names.map .capture := by
  rw [List.flatMap_map]
  exact List.map_eq_flatMap.symm

end Item

theorem parts_references_append (names : List String) (rest : List Char)
    (h : ∀ name ∈ names, Referable name) :
    parts ((String.join (names.map reference)).toList ++ rest) =
      names.map .capture ++ parts rest := by
  have hread := Item.parts_join_written_append (names.map .reference) rest (by simpa using h)
  rwa [List.map_map, Item.flatMap_parts_references] at hread

/-! ## Known captures -/

/-- A template is read if every capture that it refers to exists. -/
theorem ofText_eq_ok (names : List String) (s : String)
    (h : ∀ name, .capture name ∈ parts s.toList → name ∈ names) :
    ofText names s = .ok (parts s.toList) := by
  simp only [ofText]
  split
  · rename_i unknown hunknown
    obtain ⟨part, hpart, hsome⟩ := List.exists_of_findSome?_eq_some hunknown
    cases part with
    | char c => cases hsome
    | whole => cases hsome
    | capture name => simp [h name hpart] at hsome
  · rfl

/-! ## Numbered names -/

theorem toList_toString_nat (n : ℕ) : (toString n).toList = Nat.toDigits 10 n := Nat.toList_repr

theorem numbered_inj (start : String) (i j : ℕ) :
    start ++ toString i = start ++ toString j ↔ i = j := by
  constructor
  · intro h
    have hlists := congrArg String.toList h
    rw [String.toList_append, String.toList_append, List.append_cancel_left_eq,
      toList_toString_nat, toList_toString_nat] at hlists
    have hdigits := congrArg (Nat.ofDigitChars 10 · 0) hlists
    simpa only [Nat.ofDigitChars_ten_toDigits] using hdigits
  · rintro rfl
    rfl

/-! ## Expansion -/

variable (text : Array Char) (p : ℕ) (m : Match)

theorem expand_append (first second : Template) :
    expand (first ++ second) text p m = expand first text p m ++ expand second text p m := by
  simp [expand]

theorem expand_chars (s : List Char) : expand (s.map .char) text p m = s := by
  simp [expand, List.flatMap_map]

theorem expand_flatMap_parts (items : List Item) :
    expand (items.flatMap Item.parts) text p m = items.flatMap (Item.value text m) := by
  induction items with
  | nil => rfl
  | cons item items ih =>
      rw [List.flatMap_cons, expand_append, ih, List.flatMap_cons]
      congr 1
      cases item with
      | text s => exact expand_chars text p m s.toList
      | reference name => exact List.flatMap_singleton _ _

theorem expand_captures_of_forall (names : List String)
    (h : ∀ name ∈ names, m.captured text name = []) :
    expand (names.map .capture) text p m = [] := by
  simp only [expand, List.flatMap_map, List.flatMap_eq_nil_iff]
  exact h

/-- Of references to many captures, the one that took part is what they expand to. -/
theorem expand_captures_of_mem (names : List String) (name : String) (hnodup : names.Nodup)
    (hmem : name ∈ names)
    (hother : ∀ other ∈ names, other ≠ name → m.captured text other = []) :
    expand (names.map .capture) text p m = m.captured text name := by
  obtain ⟨before, after, rfl⟩ := List.append_of_mem hmem
  have hsplit := List.nodup_append.mp hnodup
  have hbefore : expand (before.map .capture) text p m = [] := by
    apply expand_captures_of_forall
    intro other ho
    exact hother other (by simp [ho]) (hsplit.2.2 other ho name (by simp))
  have hafter : expand (after.map .capture) text p m = [] := by
    apply expand_captures_of_forall
    intro other ho
    refine hother other (by simp [ho]) ?_
    rintro rfl
    exact (List.nodup_cons.mp hsplit.2.1).1 ho
  rw [List.map_append, List.map_cons, expand_append, hbefore, ← List.singleton_append,
    expand_append, hafter]
  simp [expand]

end SubstitutionAutomata.Regex.Template
