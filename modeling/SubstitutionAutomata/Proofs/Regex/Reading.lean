import SubstitutionAutomata.Regex.Parser
import SubstitutionAutomata.Regex.Printer
import Mathlib.Data.List.Basic

/-! # Reading back written expressions

Alternatives of legible items, written with bars between them, read back as their choice. -/

namespace SubstitutionAutomata.Regex

/-! ## Tokens of written characters -/

theorem not_isAlphanum_of_isReserved (c : Char) (h : isReserved c = true) :
    c.isAlphanum = false := by
  rw [isReserved, List.contains_iff_mem] at h
  have hall := (@List.all_eq_true _ (fun c => !c.isAlphanum) _).mp (by decide) c h
  simpa using hall

theorem isReserved_of_isOperator (c : Char) (h : isOperator c = true) : isReserved c = true := by
  rw [isOperator, List.contains_iff_mem] at h
  exact List.all_eq_true.mp (by decide) c h

theorem tokens_cons_of_not_isReserved (c : Char) (i : ℕ) (rest : List Char)
    (h : isReserved c = false) : tokens i (c :: rest) = (i, .char c) :: tokens (i + 1) rest := by
  have ho : isOperator c = false := by
    cases hc : isOperator c with
    | false => rfl
    | true => simp [isReserved_of_isOperator c hc] at h
  -- Every other row of the tokenizer starts with a reserved character.
  rw [tokens, if_neg (by simp [ho])]
  all_goals
    intros
    subst c
    simp [isReserved] at h

theorem tokens_escapeChar (c : Char) (i : ℕ) (rest : List Char) :
    tokens i (escapeChar c ++ rest) = (i, .char c) :: tokens (i + (escapeChar c).length) rest := by
  by_cases h : isReserved c = true
  · have ha := not_isAlphanum_of_isReserved c h
    have hw : c ≠ 'w' := by
      rintro rfl
      exact absurd ha (by decide)
    rw [escapeChar, if_pos h, List.cons_append, List.cons_append, List.nil_append, tokens,
      if_neg (by simp [ha])]
    · rfl
    · exact hw
  · have h : isReserved c = false := by simpa using h
    simpa [escapeChar, h] using tokens_cons_of_not_isReserved c i rest h

theorem countTokens_digits (start i count : ℕ) (digits rest : List Char)
    (h : ∀ d ∈ digits, d.isDigit = true) :
    countTokens start i count (digits ++ '}' :: rest) =
      (start, .anyTimes (Nat.ofDigitChars 10 digits count)) ::
        tokens (i + digits.length + 1) rest := by
  induction digits generalizing i count with
  | nil => simp [countTokens]
  | cons d digits ih =>
      have hd : d.isDigit = true := h d (by simp)
      have hne : d ≠ '}' := by
        rintro rfl
        exact absurd hd (by decide)
      rw [List.cons_append, countTokens, if_pos hd, ih _ _ (fun e he => h e (by simp [he])),
        Nat.ofDigitChars_cons, List.length_cons, Nat.add_right_comm i 1, Nat.add_assoc i]
      exact hne

theorem text_anyTimes (count : ℕ) :
    (anyTimes count).text = ['.', '\x7b'] ++ Nat.toDigits 10 count ++ ['}'] :=
  congrArg (fun digits => ['.', '\x7b'] ++ digits ++ ['}']) String.toList_ofList

theorem tokens_anyTimes (count i : ℕ) (rest : List Char) :
    tokens i ((anyTimes count).text ++ rest) =
      (i, .anyTimes count) :: tokens (i + (anyTimes count).text.length) rest := by
  have hd : ∀ d ∈ Nat.toDigits 10 count, d.isDigit = true := fun d hd =>
    Nat.isDigit_of_mem_toDigits (by decide) (by decide) hd
  have h := countTokens_digits i (i + 2) 0 (Nat.toDigits 10 count) rest hd
  rw [Nat.ofDigitChars_ten_toDigits] at h
  have hlen : (anyTimes count).text.length = 2 + (Nat.toDigits 10 count).length + 1 := by
    simp [text_anyTimes]
    omega
  rw [hlen, ← Nat.add_assoc, ← Nat.add_assoc, ← h]
  simp [text_anyTimes, tokens]

theorem nameTokens_append (start i : ℕ) (before name rest : List Char) (h : '>' ∉ name)
    (hname : isName (before ++ name) = true) :
    nameTokens start i before (name ++ '>' :: rest) =
      (start, .opening (.capture (String.ofList (before ++ name)))) ::
        tokens (i + name.length + 1) rest := by
  induction name generalizing i before with
  | nil =>
      rw [List.append_nil] at hname
      simp [nameTokens, hname]
  | cons c name ih =>
      have hc : c ≠ '>' := by
        rintro rfl
        simp at h
      rw [List.cons_append, nameTokens, ih _ _ (by simp_all) (by simpa using hname),
        List.length_cons, Nat.add_right_comm i 1, Nat.add_assoc i, List.append_assoc,
        List.singleton_append]
      exact hc

/-- Names that an expression may give to a capture. -/
def IsCaptureName (name : String) : Prop := isName name.toList = true

instance (name : String) : Decidable (IsCaptureName name) := inferInstanceAs (Decidable (_ = _))

theorem IsCaptureName.bracket_not_mem {name : String} (h : IsCaptureName name) :
    '>' ∉ name.toList := by
  intro hmem
  rw [IsCaptureName] at h
  cases hlist : name.toList with
  | nil => simp [hlist] at hmem
  | cons c rest =>
      rw [hlist, isName, Bool.and_eq_true] at h
      exact absurd (List.all_eq_true.mp h.2 '>' (hlist ▸ hmem)) (by decide)

theorem tokens_capture (name : String) (i : ℕ) (rest : List Char) (h : IsCaptureName name) :
    tokens i ("(?P<".toList ++ name.toList ++ '>' :: rest) =
      (i, .opening (.capture name)) ::
        tokens (i + ("(?P<".toList ++ name.toList ++ ['>']).length) rest := by
  have hname := nameTokens_append i (i + 4) [] name.toList rest h.bracket_not_mem h
  have hlen : ("(?P<".toList ++ name.toList ++ ['>']).length = 4 + name.toList.length + 1 := by
    simp
    omega
  rw [hlen, ← Nat.add_assoc, ← Nat.add_assoc]
  simpa [tokens] using hname

/-! ## Numbers of captures -/

/-- The numbering after captures of these names have opened. -/
def Numbering.extend (numbering : Numbering) : List String → Numbering
  | [] => numbering
  | name :: names =>
    extend ⟨numbering.count + 1, (name, numbering.count + 1) :: numbering.numbers⟩ names

/-- Whether captures of these names can open, each of them once. -/
def Numbering.Fresh (numbering : Numbering) (names : List String) : Prop :=
  names.Nodup ∧ ∀ name ∈ names, numbering.numbers.lookup name = none

namespace Numbering

theorem extend_append (numbering : Numbering) (names more : List String) :
    numbering.extend (names ++ more) = (numbering.extend names).extend more := by
  induction names generalizing numbering with
  | nil => rfl
  | cons name names ih => exact ih _

theorem lookup_extend (numbering : Numbering) (names : List String) (name : String) :
    (numbering.extend names).numbers.lookup name = none ↔
      name ∉ names ∧ numbering.numbers.lookup name = none := by
  induction names generalizing numbering with
  | nil => simp [extend]
  | cons first names ih =>
      rw [extend, ih]
      by_cases h : name = first
      · simp [h]
      · have hb : (name == first) = false := by simpa using h
        simp only [List.lookup_cons, hb, List.mem_cons, h, false_or]

theorem fresh_append (numbering : Numbering) (names more : List String) :
    numbering.Fresh (names ++ more) ↔
      numbering.Fresh names ∧ (numbering.extend names).Fresh more := by
  simp only [Fresh, List.nodup_append, List.mem_append, lookup_extend]
  grind

theorem open_capture (numbering : Numbering) (i : ℕ) (name : String)
    (h : numbering.numbers.lookup name = none) :
    numbering.open i (.capture name) = .ok (numbering.extend [name]) := by
  simp [Numbering.open, h, extend]

end Numbering

/-! ## Frames -/

namespace Frame

def pushAll (frame : Frame) (items : List Regex) : Frame := items.foldl push frame

theorem pushAll_eq (frame : Frame) (items : List Regex) :
    frame.pushAll items = { frame with items := items.reverse ++ frame.items } := by
  induction items generalizing frame with
  | nil => rfl
  | cons r items ih =>
      rw [pushAll, List.foldl_cons]
      change (frame.push r).pushAll items = _
      rw [ih]
      simp [push]

theorem body_reverse (kind : Opening) (i : ℕ) (items : List Regex) :
    (⟨kind, i, [], items.reverse⟩ : Frame).body = concat items := by
  simp [body, nextAlternative, choice]

end Frame

/-! ## Legible items -/

/-- Items that read back from their written form. Parentheses enclose one sequence of such items.
-/
inductive Legible : Regex → Prop where
  | char (c) : Legible (char c)
  | word : Legible word
  | anyTimes (count) (h : count < repeatLimit) : Legible (anyTimes count)
  | lazyAny : Legible lazyAny
  | group (items) (h : ∀ r ∈ items, Legible r) : Legible (group (concat items))
  | capture (name : String) (items) (hname : IsCaptureName name) (h : ∀ r ∈ items, Legible r) :
      Legible (capture name (concat items))
  | behind (width items) (hwidth : (concat items).width = some width)
      (h : ∀ r ∈ items, Legible r) : Legible (behind width (concat items))
  | ahead (items) (h : ∀ r ∈ items, Legible r) : Legible (ahead (concat items))

theorem names_concat (items : List Regex) : (concat items).names = items.flatMap names := by
  induction items with
  | nil => rfl
  | cons r items ih =>
      cases items with
      | nil => simp [concat]
      | cons s items => exact congrArg (r.names ++ ·) ih

/-- Reading the written form of an item pushes the item, wherever the reader stands. -/
def ReadsBack (r : Regex) : Prop :=
  ∀ (top : Frame) (outer : List Frame) (numbering : Numbering) (i : ℕ) (rest : List Char),
    numbering.Fresh r.names →
      parseTokens top outer numbering (tokens i (r.text ++ rest)) =
        parseTokens (top.push r) outer (numbering.extend r.names)
          (tokens (i + r.text.length) rest)

theorem parseTokens_flatMap_text (items : List Regex) (h : ∀ r ∈ items, ReadsBack r)
    (top : Frame) (outer : List Frame) (numbering : Numbering) (i : ℕ) (rest : List Char)
    (hfresh : numbering.Fresh (items.flatMap names)) :
    parseTokens top outer numbering (tokens i (items.flatMap text ++ rest)) =
      parseTokens (top.pushAll items) outer (numbering.extend (items.flatMap names))
        (tokens (i + (items.flatMap text).length) rest) := by
  induction items generalizing top numbering i with
  | nil => rfl
  | cons r items ih =>
      rw [List.flatMap_cons, Numbering.fresh_append] at hfresh
      rw [List.flatMap_cons, List.flatMap_cons, List.append_assoc,
        h r (by simp) top outer numbering i _ hfresh.1,
        ih (fun s hs => h s (by simp [hs])) _ _ _ hfresh.2, ← Numbering.extend_append,
        List.length_append, Nat.add_assoc]
      rfl

/-- An opening, a sequence of items and a closing parenthesis push what the frame closes to. -/
theorem parseTokens_enclosed (kind : Opening) (start : List Char) (items : List Regex)
    (h : ∀ r ∈ items, ReadsBack r) (top : Frame) (outer : List Frame)
    (numbering opened : Numbering) (i : ℕ) (rest : List Char)
    (hstart : ∀ s, tokens i (start ++ s) = (i, .opening kind) :: tokens (i + start.length) s)
    (hopen : numbering.open i kind = .ok opened)
    (hfresh : opened.Fresh (items.flatMap names)) :
    parseTokens top outer numbering
        (tokens i (start ++ ((concat items).text ++ [')']) ++ rest)) =
      parseTokens (top.push (Frame.pushAll ⟨kind, i, [], []⟩ items).close) outer
        (opened.extend (items.flatMap names))
        (tokens (i + (start ++ ((concat items).text ++ [')'])).length) rest) := by
  rw [text_concat, List.append_assoc, hstart, parseTokens, hopen, List.append_assoc]
  simp only
  rw [parseTokens_flatMap_text items h _ _ _ _ _ hfresh]
  simp only [List.singleton_append, tokens, parseTokens, List.length_append, List.length_singleton,
    Nat.add_assoc]

theorem Legible.readsBack {r : Regex} (h : Legible r) : ReadsBack r := by
  intro top outer numbering i rest hfresh
  induction h generalizing top outer numbering i rest with
  | char c => rw [text_char, tokens_escapeChar, parseTokens]; rfl
  | word => simp [tokens, parseTokens, names, Numbering.extend]
  | anyTimes count h =>
      rw [tokens_anyTimes, parseTokens, if_neg (Nat.not_le_of_lt h)]
      rfl
  | lazyAny => simp [tokens, parseTokens, names, Numbering.extend]
  | group items _ ih =>
      rw [names, names_concat] at hfresh ⊢
      have := parseTokens_enclosed .group "(?:".toList items (fun r hr => ih r hr) top outer
        numbering numbering i rest (by simp [tokens]) rfl hfresh
      simpa [Frame.close, Frame.body_reverse, Frame.pushAll_eq] using this
  | capture name items hname _ ih =>
      have hsplit : (numbering.extend [name]).extend (items.flatMap names) =
          numbering.extend (name :: items.flatMap names) := rfl
      rw [names, names_concat] at hfresh ⊢
      obtain ⟨hone, hmore⟩ := (Numbering.fresh_append numbering [name] _).mp hfresh
      have := parseTokens_enclosed (.capture name) ("(?P<".toList ++ name.toList ++ ['>']) items
        (fun r hr => ih r hr) top outer numbering (numbering.extend [name]) i rest
        (by simpa using fun s => tokens_capture name i s hname)
        (Numbering.open_capture numbering i name (hone.2 name (by simp))) hmore
      simpa [Frame.close, Frame.body_reverse, Frame.pushAll_eq, hsplit] using this
  | behind width items hwidth _ ih =>
      rw [names, names_concat] at hfresh ⊢
      have := parseTokens_enclosed .behind "(?<=".toList items (fun r hr => ih r hr) top outer
        numbering numbering i rest (by simp [tokens]) rfl hfresh
      simpa [Frame.close, Frame.body_reverse, Frame.pushAll_eq, hwidth] using this
  | ahead items _ ih =>
      rw [names, names_concat] at hfresh ⊢
      have := parseTokens_enclosed .ahead "(?=".toList items (fun r hr => ih r hr) top outer
        numbering numbering i rest (by simp [tokens]) rfl hfresh
      simpa [Frame.close, Frame.body_reverse, Frame.pushAll_eq] using this

/-! ## Width and look-behinds -/

theorem width_concat_append (rs ss : List Regex) :
    (concat (rs ++ ss)).width = do return (← (concat rs).width) + (← (concat ss).width) := by
  induction rs with
  | nil => cases h : (concat ss).width <;> simp [concat, width, h]
  | cons r rs ih =>
      rw [List.cons_append, width_concat_cons, width_concat_cons, ih]
      cases r.width <;> cases (concat rs).width <;> cases (concat ss).width <;>
        simp [Nat.add_assoc]

theorem fixedBehinds_concat (items : List Regex) :
    (concat items).fixedBehinds = items.all fixedBehinds := by
  induction items with
  | nil => rfl
  | cons r items ih =>
      cases items with
      | nil => simp [concat]
      | cons s items => exact congrArg (r.fixedBehinds && ·) ih

theorem fixedBehinds_literal (s : List Char) : (literal s).fixedBehinds = true := by
  simp [literal, fixedBehinds_concat, fixedBehinds]

/-- A sequence of legible items reads back, if no name is captured twice. -/
theorem parse_concat_text (items : List Regex) (h : ∀ r ∈ items, Legible r)
    (hnames : (items.flatMap names).Nodup) (hbehinds : ∀ r ∈ items, r.fixedBehinds = true) :
    parse (concat items).text = .ok (concat items) := by
  have hread := parseTokens_flatMap_text items (fun r hr => (h r hr).readsBack)
    ⟨.group, 0, [], []⟩ [] ⟨0, []⟩ 0 [] ⟨hnames, by simp⟩
  have hbody : parseTokens ⟨.group, 0, [], []⟩ [] ⟨0, []⟩ (tokens 0 (items.flatMap text)) =
      .ok (concat items) := by
    rw [List.append_nil] at hread
    rw [hread, tokens, parseTokens, Frame.pushAll_eq, List.append_nil, Frame.body_reverse]
  have hwidths : (concat items).fixedBehinds = true := by
    rw [fixedBehinds_concat]
    exact List.all_eq_true.mpr hbehinds
  rw [text_concat, parse, hbody]
  simp only [hwidths, if_true]

/-! ## Alternatives -/

theorem fixedBehinds_choice (rs : List Regex) :
    (choice rs).fixedBehinds = rs.all fixedBehinds := by
  induction rs with
  | nil => rfl
  | cons r rs ih =>
      cases rs with
      | nil => simp [choice]
      | cons s rs => exact congrArg (r.fixedBehinds && ·) ih

theorem names_choice (rs : List Regex) : (choice rs).names = rs.flatMap names := by
  induction rs with
  | nil => rfl
  | cons r rs ih =>
      cases rs with
      | nil => simp [choice]
      | cons s rs => exact congrArg (r.names ++ ·) ih

/-- At the top level every bar ends an alternative of one item. -/
theorem parseTokens_intercalate_text (r : Regex) (rs : List Regex)
    (h : ∀ s ∈ r :: rs, Legible s) (top : Frame) (numbering : Numbering) (i : ℕ)
    (hitems : top.items = []) (hfresh : numbering.Fresh ((r :: rs).flatMap names)) :
    parseTokens top [] numbering (tokens i (List.intercalate ['|'] ((r :: rs).map text))) =
      .ok (choice (top.alternatives.reverse ++ r :: rs)) := by
  induction rs generalizing r top numbering i with
  | nil =>
      have hr := (h r (by simp)).readsBack top [] numbering i [] (by simpa using hfresh)
      rw [List.append_nil] at hr
      simp [List.intercalate, hr, tokens, parseTokens, Frame.push, Frame.body,
        Frame.nextAlternative, hitems, concat]
  | cons s rs ih =>
      rw [List.flatMap_cons, Numbering.fresh_append] at hfresh
      have hjoin : List.intercalate ['|'] ((r :: s :: rs).map text) =
          r.text ++ '|' :: List.intercalate ['|'] ((s :: rs).map text) := by
        simp [List.intercalate]
      rw [hjoin, (h r (by simp)).readsBack top [] numbering i _ hfresh.1, tokens, parseTokens,
        ih s (fun t ht => h t (List.mem_cons_of_mem r ht)) (top.push r).nextAlternative _ _ rfl
          hfresh.2]
      simp [Frame.nextAlternative, Frame.push, hitems, concat]

/-- Alternatives that are one legible item each read back as their choice, if no name is captured
twice. The choice is refused if a look-behind has not the width of its body or a width too large. -/
theorem parse_intercalate_text_eq (rs : List Regex) (hne : rs ≠ []) (h : ∀ r ∈ rs, Legible r)
    (hnames : (rs.flatMap names).Nodup) :
    parse (List.intercalate ['|'] (rs.map text)) =
      if rs.all fixedBehinds then .ok (choice rs)
      else .error (.ofFault (List.intercalate ['|'] (rs.map text)) (behindFault (choice rs))) := by
  obtain ⟨r, rs, rfl⟩ := List.exists_cons_of_ne_nil hne
  have hread := parseTokens_intercalate_text r rs h ⟨.group, 0, [], []⟩ ⟨0, []⟩ 0 rfl
    ⟨hnames, by simp⟩
  rw [parse, hread]
  simp only [List.reverse_nil, List.nil_append, fixedBehinds_choice]

theorem parse_intercalate_text (rs : List Regex) (hne : rs ≠ []) (h : ∀ r ∈ rs, Legible r)
    (hnames : (rs.flatMap names).Nodup) (hbehinds : ∀ r ∈ rs, r.fixedBehinds = true) :
    parse (List.intercalate ['|'] (rs.map text)) = .ok (choice rs) := by
  rw [parse_intercalate_text_eq rs hne h hnames, if_pos (List.all_eq_true.mpr hbehinds)]

end SubstitutionAutomata.Regex
