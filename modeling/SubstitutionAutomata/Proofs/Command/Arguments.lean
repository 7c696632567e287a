import SubstitutionAutomata.Command.Invocation
import Mathlib.Data.List.TakeWhile
import Mathlib.Data.Nat.Notation

/-! # How command lines are read

A command line of a command, the file of a board if the command is about one, and options after it
is read as what it says. -/

namespace SubstitutionAutomata.Command

open Text

/-- A long option with a value, as it is written in one argument. -/
structure Setting where
  name : String
  value : String

def Setting.text (s : Setting) : String := s.name ++ "=" ++ s.value

/-- Later options leave what stands under other keys. -/
theorem Parsed.lookup?_append {entries later : List (String × Value)} {key : String}
    (h : ∀ entry ∈ later, entry.1 ≠ key) (positional : Option (List String))
    (extras : List String) :
    (Parsed.mk (entries ++ later) positional extras).lookup? key =
      (Parsed.mk entries positional extras).lookup? key := by
  have hnone : later.reverse.lookup key = none := by
    rw [List.lookup_eq_none_iff]
    intro entry hentry
    simpa using (h entry (List.mem_reverse.mp hentry)).symm
  rw [lookup?, lookup?, List.reverse_append, List.lookup_append, hnone, Option.none_or]

namespace Grammar

variable (g : Grammar) {s : Setting} {o : OptionSpec}

/-! ## Single arguments -/

theorem classify_of_not_startsWith {argument : String} (h : argument.startsWith "-" = false) :
    g.classify argument = .ok (.value argument) := by
  simp [classify, h]

/-- A setting is split at its first equals sign. -/
theorem splitValue_text (h : '=' ∉ s.name.toList) : splitValue s.text = (s.name, some s.value) := by
  have hname : ∀ c ∈ s.name.toList, decide (c ≠ '=') = true := by
    intro c hc
    exact decide_eq_true fun he => h (he ▸ hc)
  have htext : s.text.toList = s.name.toList ++ '=' :: s.value.toList := by
    simp [Setting.text]
  have htake : s.text.toList.takeWhile (· ≠ '=') = s.name.toList := by
    rw [htext, List.takeWhile_append_of_pos hname, List.takeWhile_cons_of_neg (by simp),
      List.append_nil]
  have hdrop : s.text.toList.dropWhile (· ≠ '=') = '=' :: s.value.toList := by
    rw [htext, List.dropWhile_append_of_pos hname, List.dropWhile_cons_of_neg (by simp)]
  simp only [splitValue, htake, hdrop, String.ofList_toList]

theorem equals_mem_text (s : Setting) : '=' ∈ s.text.toList := by simp [Setting.text]

theorem startsWith_text {start : String} (h : s.name.startsWith start = true) :
    s.text.startsWith start = true := by
  rw [String.startsWith_string_iff] at h ⊢
  exact h.trans (by simp [Setting.text])

/-- No option has an equals sign in its name. -/
def Plain : Prop := ∀ o ∈ g.options, ∀ name ∈ o.names, '=' ∉ name.toList

variable {g} in
theorem Plain.find?_text (h : g.Plain) : g.find? s.text = none := by
  rw [find?, List.find?_eq_none]
  intro o ho hname
  exact h o ho s.text (by simpa using hname) (equals_mem_text s)

/-- A setting of a long option is no value. -/
theorem isOption_text (h : s.name.startsWith "--" = true) :
    (!s.text.startsWith "-" || s.text = "-") = false := by
  have hstart : s.text.startsWith "-" = true := by
    have hlong := startsWith_text h
    rw [String.startsWith_string_iff] at hlong ⊢
    exact List.IsPrefix.trans (by decide) hlong
  have hequals : s.text ≠ "-" := by
    intro hdash
    exact absurd (hdash ▸ equals_mem_text s) (by decide)
  simp [hstart, hequals]

variable {g}

/-- A setting of an option of the grammar. -/
theorem classify_text (hg : g.Plain) (hname : s.name.startsWith "--" = true)
    (hequals : '=' ∉ s.name.toList) (ho : g.find? s.name = some o) :
    g.classify s.text = .ok (.option ⟨o, s.name, some s.value, true⟩) := by
  simp only [classify, isOption_text hname, hg.find?_text, splitValue_text hequals, ho,
    Bool.false_eq_true, if_false]

/-- An argument that is no option, not even one cut short. -/
theorem exists_classify_of_candidates {argument : String} (hfind : g.find? argument = none)
    (hname : g.find? (splitValue argument).1 = none) (hcandidates : g.candidates argument = []) :
    ∃ classified, g.classify argument = .ok classified := by
  by_cases hvalue : (!argument.startsWith "-" || argument = "-") = true
  · exact ⟨_, if_pos hvalue⟩
  · simp only [classify, if_neg hvalue, hfind, hname, hcandidates]
    cases (splitValue argument).2 <;> exact ⟨_, rfl⟩

theorem exists_classify_text (hg : g.Plain) (hname : s.name.startsWith "--" = true)
    (hequals : '=' ∉ s.name.toList)
    (hnone : ∀ entry ∈ g.names, entry.1.startsWith s.name = false) :
    ∃ argument, g.classify s.text = .ok argument := by
  have hfind : g.find? s.name = none := by
    rw [find?, List.find?_eq_none]
    intro o ho hmem
    have hentry : (s.name, o) ∈ g.names :=
      List.mem_flatMap.mpr ⟨o, ho, List.mem_map.mpr ⟨s.name, by simpa using hmem, rfl⟩⟩
    have hself : s.name.startsWith s.name = true :=
      String.startsWith_string_iff.mpr (List.prefix_refl _)
    rw [hnone _ hentry] at hself
    cases hself
  have hfilter : (g.names.filter fun entry => entry.1.startsWith s.name) = [] := by
    rw [List.filter_eq_nil_iff]
    intro entry hentry
    rw [hnone entry hentry]
    exact Bool.false_ne_true
  refine exists_classify_of_candidates hg.find?_text (by rw [splitValue_text hequals, hfind]) ?_
  rw [candidates, if_pos (startsWith_text hname), splitValue_text hequals]
  simp only [hfilter, List.map_nil]

/-! ## All arguments -/

theorem classifyAll_cons {first : String} {argument : Argument} {rest : List String}
    {classified : List Argument} (hfirst : g.classify first = .ok argument) (hne : first ≠ "--")
    (hrest : g.classifyAll rest = .ok classified) :
    g.classifyAll (first :: rest) = .ok (argument :: classified) := by
  rw [classifyAll, hfirst, hrest]
  · rfl
  · exact hne

theorem exists_classifyAll {arguments : List String}
    (h : ∀ s ∈ arguments, ∃ argument, g.classify s = .ok argument) :
    ∃ classified, g.classifyAll arguments = .ok classified ∧
      classified.length = arguments.length := by
  induction arguments with
  | nil => exact ⟨[], rfl, rfl⟩
  | cons first rest ih =>
      obtain ⟨argument, hargument⟩ := h first List.mem_cons_self
      obtain ⟨classified, hrest, hlength⟩ := ih fun s hs => h s (List.mem_cons_of_mem first hs)
      by_cases hseparator : first = "--"
      · subst hseparator
        exact ⟨_, rfl, by simp⟩
      · exact ⟨_, classifyAll_cons hargument hseparator hrest, by simp [hlength]⟩

theorem ne_separator {argument : String} (h : argument.startsWith "-" = false) :
    argument ≠ "--" := by
  rintro rfl
  rw [String.startsWith_string_eq_false_iff] at h
  exact h (by decide)

/-- A setting of an option of the grammar whose value can be read, with what it is read as. -/
structure Accepts (g : Grammar) (s : Setting) (entry : String × Value) : Prop where
  long : s.name.startsWith "--" = true
  equals : '=' ∉ s.name.toList
  option : ∃ o, g.find? s.name = some o ∧ o.takesValue = true ∧ o.key = entry.1 ∧
    readValue o s.value = .ok entry.2

theorem ne_help_of_takesValue (h : o.takesValue = true) : o.kind ≠ .help := by
  intro hhelp
  simp [OptionSpec.takesValue, hhelp] at h

/-- Of options that exclude each other one is not given. -/
def Free (g : Grammar) (entries : List (String × Value)) : Prop :=
  ∀ pair ∈ g.rivals, (∀ entry ∈ entries, entry.1 ≠ pair.1) ∨ ∀ entry ∈ entries, entry.1 ≠ pair.2

theorem free_of_rivals_eq_nil (h : g.rivals = []) (entries : List (String × Value)) :
    g.Free entries := by
  intro pair hpair
  rw [h] at hpair
  cases hpair

theorem isSet_eq_false {p : Parsed} {key : String} (h : ∀ entry ∈ p.values, entry.1 ≠ key) :
    p.isSet key = false := by
  have hlookup : (Parsed.mk ([] ++ p.values) p.positional p.extras).lookup? key = _ :=
    Parsed.lookup?_append h p.positional p.extras
  exact congrArg Option.isSome hlookup

theorem Free.rival? {p : Parsed} {v : Value} {entries : List (String × Value)}
    (h : g.Free (p.values ++ (o.key, v) :: entries)) : g.rival? p o = none := by
  rw [Grammar.rival?, List.findSome?_eq_none_iff]
  rintro ⟨first, second⟩ hpair
  have hvalues : ∀ {key : String},
      (∀ entry ∈ p.values ++ (o.key, v) :: entries, entry.1 ≠ key) →
        p.isSet key = false ∧ o.key ≠ key := by
    intro key hkey
    exact ⟨isSet_eq_false fun entry hentry => hkey entry (List.mem_append_left _ hentry),
      hkey (o.key, v) (List.mem_append_right _ List.mem_cons_self)⟩
  rcases h _ hpair with hfirst | hsecond
  · obtain ⟨hset, hne⟩ := hvalues hfirst
    simp [hset, hne.symm]
  · obtain ⟨hset, hne⟩ := hvalues hsecond
    simp [hset, hne.symm]

/-- An option without a rival is added if its value can be read. -/
theorem add_eq_ok {p : Parsed} (hrival : g.rival? p o = none) {value : String} {v : Value}
    (hhelp : o.kind ≠ .help) (hread : readValue o value = .ok v) :
    g.add p o value = .ok { p with values := p.values ++ [(o.key, v)] } := by
  rw [add, if_neg hhelp]
  simp only [hread, hrival, refuse, Except.mapError]
  rfl

theorem scan_text {p : Parsed} (hrival : g.rival? p o = none) {v : Value} {raw : String}
    (hvalue : o.takesValue = true) (hread : readValue o s.value = .ok v)
    (rest : List (Argument × String)) :
    g.scan p ((.option ⟨o, s.name, some s.value, true⟩, raw) :: rest) =
      g.scan { p with values := p.values ++ [(o.key, v)] } rest := by
  have hexpand : g.expand ⟨o, s.name, some s.value, true⟩ =
      .ok ⟨[], some (o, some s.value), none⟩ := if_pos hvalue
  have hadd := add_eq_ok hrival (ne_help_of_takesValue hvalue) hread
  rw [scan, hexpand]
  change (g.add p o s.value >>= fun p => g.scan p rest) = _
  rw [hadd]
  rfl

/-- The value of an option may be the next argument. -/
theorem scan_value {p : Parsed} (hrival : g.rival? p o = none)
    {name value raw raw' : String} {v : Value} (hvalue : o.takesValue = true)
    (hread : readValue o value = .ok v) (rest : List (Argument × String)) :
    g.scan p ((.option ⟨o, name, none, false⟩, raw) :: (.value value, raw') :: rest) =
      g.scan { p with values := p.values ++ [(o.key, v)] } rest := by
  have hexpand : g.expand ⟨o, name, none, false⟩ = .ok ⟨[], some (o, none), none⟩ := if_pos hvalue
  have hadd := add_eq_ok hrival (ne_help_of_takesValue hvalue) hread
  rw [scan, hexpand]
  change (g.add p o value >>= fun p => g.scan p rest) = _
  rw [hadd]
  rfl

theorem scan_flag {p : Parsed} (hrival : g.rival? p o = none) {name raw : String}
    (hkind : o.kind = .flag) (rest : List (Argument × String)) :
    g.scan p ((.option ⟨o, name, none, false⟩, raw) :: rest) =
      g.scan { p with values := p.values ++ [(o.key, .flag)] } rest := by
  have hvalue : o.takesValue = false := by simp [OptionSpec.takesValue, hkind]
  have hexpand : g.expand ⟨o, name, none, false⟩ = .ok ⟨[o], none, none⟩ := by
    simp [expand, hvalue]
  have hread : readValue o "" = .ok .flag := by simp [readValue, hkind]
  have hadd := add_eq_ok hrival (by simp [hkind]) hread
  rw [scan, hexpand]
  change (g.addFlags p [o] >>= fun p => g.scan p rest) = _
  rw [addFlags, List.foldlM_cons, hadd]
  rfl

/-- A positional argument that takes the rest ends the reading. -/
theorem scan_takesRest {spec : Positional} (hspec : g.positional = some spec)
    (htakes : spec.takesRest = true) (p : Parsed) (hp : p.positional = none) (v : String)
    {raw : String} (hchoice : checkChoice spec.name spec.choices raw = .ok ())
    (rest : List (Argument × String)) :
    g.scan p ((.value v, raw) :: rest) =
      .ok { p with positional := some (raw :: rest.map Prod.snd) } := by
  rw [scan]
  · simp [hp, hspec, htakes, addPositional, hchoice, refuse, Except.mapError]
  all_goals simp

/-- One that does not stands alone. -/
theorem scan_positional {spec : Positional} (hspec : g.positional = some spec)
    (htakes : spec.takesRest = false) (p : Parsed) (hp : p.positional = none) (v : String)
    {raw : String} (hchoice : checkChoice spec.name spec.choices raw = .ok ())
    {rest : List (Argument × String)} (hrest : ∀ entry ∈ rest, entry.1 ≠ .separator) :
    g.scan p ((.value v, raw) :: rest) = g.scan { p with positional := some [raw] } rest := by
  have hnext : ∀ raw' rest', rest ≠ (.separator, raw') :: rest' := by
    rintro raw' rest' rfl
    exact hrest _ List.mem_cons_self rfl
  rw [scan]
  · simp only [hp, hspec, htakes, addPositional, hchoice, refuse, Except.mapError,
      Option.isSome_none, Bool.false_eq_true, if_false]
    rfl
  all_goals simp

theorem parse_eq_ok {arguments : List String} {classified : List Argument} {p : Parsed}
    (hclassify : g.classifyAll arguments = .ok classified)
    (hscan : g.scan ⟨[], none, []⟩ (classified.zip arguments) = .ok p)
    (hrequired : g.checkRequired p = .ok p) : g.parse arguments = .ok p := by
  rw [parse, hclassify]
  change (g.scan _ (classified.zip arguments) >>= fun p => g.refuse (g.checkRequired p)) = _
  rw [hscan]
  change g.refuse (g.checkRequired p) = _
  rw [hrequired]
  rfl

end Grammar

/-! ## Commands -/

open Grammar

theorem plain_mainGrammar : mainGrammar.Plain := by
  unfold Plain
  decide

/-- The arguments after a command are left to the command. -/
theorem mainGrammar_parse {name : String} (hname : name ∈ ["life", "machine", "inspect", "compare"])
    {arguments : List String}
    (h : ∀ s ∈ arguments, ∃ argument, mainGrammar.classify s = .ok argument) :
    mainGrammar.parse (name :: arguments) = .ok ⟨[], some (name :: arguments), []⟩ := by
  obtain ⟨classified, hclassify, hlength⟩ := exists_classifyAll h
  have hvalue : name.startsWith "-" = false := by
    revert name
    simp only [String.startsWith_string_eq_false_iff]
    decide
  have hall : mainGrammar.classifyAll (name :: arguments) = .ok (.value name :: classified) :=
    classifyAll_cons (classify_of_not_startsWith _ hvalue) (ne_separator hvalue) hclassify
  have hrest : (classified.zip arguments).map Prod.snd = arguments :=
    List.map_snd_zip (by omega)
  have hchoice : checkChoice "command" ["life", "machine", "inspect", "compare"] name = .ok () := by
    rw [checkChoice, if_pos]
    simpa using hname
  have hscan := scan_takesRest (g := mainGrammar) rfl rfl ⟨[], none, []⟩ rfl name hchoice
    (classified.zip arguments)
  rw [hrest] at hscan
  exact parse_eq_ok hall hscan rfl

/-! ## Options of commands -/

/-- A grammar of a command whose options with a value are none of the main program's. -/
structure Grammar.Apart (g : Grammar) : Prop where
  plain : g.Plain
  apart : ∀ o ∈ g.options, o.takesValue = true → ∀ name ∈ o.names,
    ∀ entry ∈ mainGrammar.names, entry.1.startsWith name = false

/-- The grammars of the commands that run something. -/
def runningGrammars : List Grammar := [lifeGrammar, machineGrammar, compareGrammar]

theorem Grammar.apart_of_mem {g : Grammar} (hg : g ∈ runningGrammars) : g.Apart := by
  have hplain : ∀ g ∈ runningGrammars, g.Plain := by
    unfold Plain
    decide
  have hapart : ∀ g ∈ runningGrammars, ∀ o ∈ g.options, o.takesValue = true → ∀ name ∈ o.names,
      ∀ entry ∈ mainGrammar.names, entry.1.startsWith name = false := by
    simp only [String.startsWith_string_eq_false_iff]
    decide
  exact ⟨hplain g hg, hapart g hg⟩

/-- An option without a value of its own, which the main program leaves to the command. -/
structure Grammar.Names (g : Grammar) (name : String) (o : OptionSpec) : Prop where
  classify : g.classify name = .ok (.option ⟨o, name, none, false⟩)
  ne_separator : name ≠ "--"
  main : ∃ argument, mainGrammar.classify name = .ok argument

/-- How options are written, and what they are read as: settings, options with their value in the
next argument, and flags. -/
inductive Grammar.Reads (g : Grammar) : List String → List (String × Value) → Prop where
  | nil : g.Reads [] []
  | setting {s : Setting} {entry : String × Value} {arguments : List String}
      {entries : List (String × Value)} (hs : g.Accepts s entry)
      (rest : g.Reads arguments entries) : g.Reads (s.text :: arguments) (entry :: entries)
  | value {name value : String} {o : OptionSpec} {v : Value} {arguments : List String}
      {entries : List (String × Value)} (hname : g.Names name o) (htakes : o.takesValue = true)
      (hvalue : value.startsWith "-" = false) (hread : readValue o value = .ok v)
      (rest : g.Reads arguments entries) :
      g.Reads (name :: value :: arguments) ((o.key, v) :: entries)
  | flag {name : String} {o : OptionSpec} {arguments : List String}
      {entries : List (String × Value)} (hname : g.Names name o) (hkind : o.kind = .flag)
      (rest : g.Reads arguments entries) : g.Reads (name :: arguments) ((o.key, .flag) :: entries)

namespace Grammar

variable {g : Grammar} {arguments : List String} {entries : List (String × Value)}

theorem Reads.main (hg : g.Apart) (h : g.Reads arguments entries) :
    ∀ s ∈ arguments, ∃ argument, mainGrammar.classify s = .ok argument := by
  induction h with
  | nil => simp
  | @setting s entry arguments entries hs rest ih =>
      obtain ⟨o, ho, hvalue, -, -⟩ := hs.option
      have hname : s.name ∈ o.names := by simpa using List.find?_some ho
      exact List.forall_mem_cons.mpr ⟨exists_classify_text plain_mainGrammar hs.long hs.equals
        (hg.apart o (List.mem_of_find?_eq_some ho) hvalue s.name hname), ih⟩
  | value hname htakes hvalue hread rest ih =>
      exact List.forall_mem_cons.mpr ⟨hname.main,
        List.forall_mem_cons.mpr ⟨⟨_, classify_of_not_startsWith _ hvalue⟩, ih⟩⟩
  | flag hname hkind rest ih => exact List.forall_mem_cons.mpr ⟨hname.main, ih⟩

theorem option_ne_separator (w : Written) : Argument.option w ≠ .separator := by
  intro h
  cases h

theorem value_ne_separator (s : String) : Argument.value s ≠ .separator := by
  intro h
  cases h

theorem Reads.exists_classifyAll (hg : g.Apart) (h : g.Reads arguments entries) :
    ∃ classified, g.classifyAll arguments = .ok classified ∧
      (∀ argument ∈ classified, argument ≠ .separator) ∧
      ∀ p : Parsed, g.Free (p.values ++ entries) → g.scan p (classified.zip arguments) =
        .ok { p with values := p.values ++ entries } := by
  induction h with
  | nil => exact ⟨[], rfl, by simp, fun p _ => by simp [scan]⟩
  | @setting s entry arguments entries hs rest ih =>
      obtain ⟨classified, hclassify, hseparator, hscan⟩ := ih
      obtain ⟨o, ho, hvalue, hkey, hread⟩ := hs.option
      have hentry : entry = (o.key, entry.2) := Prod.ext hkey.symm rfl
      have hne : s.text ≠ "--" := by
        intro hdashes
        exact absurd (hdashes ▸ equals_mem_text s) (by decide)
      refine ⟨_, classifyAll_cons (classify_text hg.plain hs.long hs.equals ho) hne hclassify,
        List.forall_mem_cons.mpr ⟨option_ne_separator _, hseparator⟩, fun p hfree => ?_⟩
      rw [hentry] at hfree ⊢
      have hrest := hscan { p with values := p.values ++ [(o.key, entry.2)] } (by simpa using hfree)
      rw [List.zip_cons_cons, scan_text hfree.rival? hvalue hread, hrest]
      simp
  | @value name value o v arguments entries hname htakes hvalue hread rest ih =>
      obtain ⟨classified, hclassify, hseparator, hscan⟩ := ih
      have hvalues := classifyAll_cons (classify_of_not_startsWith g hvalue)
        (Grammar.ne_separator hvalue) hclassify
      refine ⟨_, classifyAll_cons hname.classify hname.ne_separator hvalues,
        List.forall_mem_cons.mpr ⟨option_ne_separator _,
          List.forall_mem_cons.mpr ⟨value_ne_separator _, hseparator⟩⟩, fun p hfree => ?_⟩
      have hrest := hscan { p with values := p.values ++ [(o.key, v)] } (by simpa using hfree)
      rw [List.zip_cons_cons, List.zip_cons_cons, scan_value hfree.rival? htakes hread, hrest]
      simp
  | @flag name o arguments entries hname hkind rest ih =>
      obtain ⟨classified, hclassify, hseparator, hscan⟩ := ih
      refine ⟨_, classifyAll_cons hname.classify hname.ne_separator hclassify,
        List.forall_mem_cons.mpr ⟨option_ne_separator _, hseparator⟩, fun p hfree => ?_⟩
      have hrest := hscan { p with values := p.values ++ [(o.key, .flag)] } (by simpa using hfree)
      rw [List.zip_cons_cons, scan_flag hfree.rival? hkind, hrest]
      simp

/-- The options after the file of a board. -/
theorem Reads.parse_board (hg : g.Apart) (hrivals : g.rivals = [])
    (hpositional : g.positional = some ⟨"board", [], false, true⟩)
    (h : g.Reads arguments entries) {path : String} (hpath : path.startsWith "-" = false) :
    g.parse (path :: arguments) = .ok ⟨entries, some [path], []⟩ := by
  obtain ⟨classified, hclassify, hseparator, hscan⟩ := h.exists_classifyAll hg
  have hafter : ∀ entry ∈ classified.zip arguments, entry.1 ≠ .separator := fun entry hentry =>
    hseparator _ (List.of_mem_zip hentry).1
  have hrequired : g.checkRequired ⟨entries, some [path], []⟩ =
      .ok ⟨entries, some [path], []⟩ := by
    simp [checkRequired, hpositional]
  refine parse_eq_ok (classifyAll_cons (classify_of_not_startsWith g hpath)
    (Grammar.ne_separator hpath) hclassify) ?_ hrequired
  rw [List.zip_cons_cons, scan_positional hpositional rfl _ rfl path rfl hafter,
    hscan _ (free_of_rivals_eq_nil hrivals _)]
  simp

/-- The options of a command that is about no board. -/
theorem Reads.parse_options (hg : g.Apart) (hpositional : g.positional = none)
    (h : g.Reads arguments entries) (hfree : g.Free entries) :
    g.parse arguments = .ok ⟨entries, none, []⟩ := by
  obtain ⟨classified, hclassify, -, hscan⟩ := h.exists_classifyAll hg
  exact parse_eq_ok hclassify (hscan ⟨[], none, []⟩ hfree) (by simp [checkRequired, hpositional])

/-! ### Names and values -/

/-- Names of options that the main program leaves to the commands. -/
def ownNames : List String :=
  ["-g", "--unbordered", "--rules", "--max-steps", "-q", "--strict"]

theorem exists_classify_mainGrammar {name : String} (hname : name ∈ ownNames) :
    ∃ argument, mainGrammar.classify name = .ok argument := by
  have hnone : ∀ name ∈ ownNames, mainGrammar.find? name = none ∧
      mainGrammar.find? (splitValue name).1 = none ∧ mainGrammar.candidates name = [] := by
    decide +kernel
  obtain ⟨hfind, hsplit, hcandidates⟩ := hnone name hname
  exact exists_classify_of_candidates hfind hsplit hcandidates

theorem names_of_find? {name : String} (hname : name ∈ ownNames) {o : OptionSpec}
    (ho : g.find? name = some o) : g.Names name o where
  classify := by
    have hoption : ∀ name ∈ ownNames, (!name.startsWith "-" || name = "-") = false := by
      simp only [Bool.or_eq_false_iff, Bool.not_eq_eq_eq_not, Bool.not_false,
        String.startsWith_string_iff]
      decide
    simp only [Grammar.classify, hoption name hname, ho, Bool.false_eq_true, if_false]
  ne_separator := by
    rintro rfl
    exact absurd hname (by decide)
  main := exists_classify_mainGrammar hname

def generationsOption : OptionSpec := ⟨["-g", "--generations"], .integer⟩

theorem names_generations_life : lifeGrammar.Names "-g" generationsOption :=
  names_of_find? (by decide) rfl

theorem names_generations_compare : compareGrammar.Names "-g" generationsOption :=
  names_of_find? (by decide) rfl

theorem names_unbordered : lifeGrammar.Names "--unbordered" ⟨["--unbordered"], .flag⟩ :=
  names_of_find? (by decide) rfl

theorem Reads.generations (hname : g.Names "-g" generationsOption) {numeral : String} {n : ℤ}
    (hnumeral : numeral.startsWith "-" = false) (hn : int? numeral = some n)
    (rest : g.Reads arguments entries) :
    g.Reads ("-g" :: numeral :: arguments) (("--generations", .integer n) :: entries) := by
  have hread : readValue generationsOption numeral = .ok (.integer n) := by
    simp [readValue, generationsOption, hn]
  exact .value hname rfl hnumeral hread rest

/-- Names of options that are written with their value in one argument. -/
def settingNames : List String := ["--rule", "--delay", "--input", "--accept", "--tape-length"]

theorem accepts_of_find? {name : String} (hname : name ∈ settingNames) {o : OptionSpec}
    (ho : g.find? name = some o) (htakes : o.takesValue = true) {value : String} {v : Value}
    (hread : readValue o value = .ok v) : g.Accepts ⟨name, value⟩ (o.key, v) where
  long := by
    have hlong : ∀ name ∈ settingNames, "--".toList <+: name.toList := by decide
    exact String.startsWith_string_iff.mpr (hlong name hname)
  equals := by
    have hplain : ∀ name ∈ settingNames, '=' ∉ name.toList := by decide
    exact hplain name hname
  option := ⟨o, ho, htakes, rfl, hread⟩

theorem accepts_rule (hrule : g.find? "--rule" = some ⟨["-r", "--rule"], .text⟩) (text : String) :
    g.Accepts ⟨"--rule", text⟩ ("--rule", .text text) :=
  accepts_of_find? (by decide) hrule rfl rfl

end Grammar

/-! ## Command lines -/

/-- What a command line is read as, if its own grammar reads the arguments after the command. -/
theorem readArguments_of_parse {g : Grammar} {name : String}
    (hname : name ∈ ["life", "machine", "inspect", "compare"]) {arguments : List String}
    (hmain : ∀ s ∈ arguments, ∃ argument, mainGrammar.classify s = .ok argument)
    (invocation : Parsed → Invocation)
    (hcommand : readCommand name arguments =
      (g.parse arguments).map fun p => (invocation p, p.extras))
    {entries : List (String × Value)} {positional : Option (List String)}
    (hparse : g.parse arguments = .ok ⟨entries, positional, []⟩) :
    readArguments (name :: arguments) =
      .ok (false, some (invocation ⟨entries, positional, []⟩)) := by
  rw [hparse] at hcommand
  rw [readArguments, mainGrammar_parse hname hmain]
  change ((readCommand name _).map _ >>= _) = _
  rw [hcommand]
  rfl

/-- A command on the file of a board. -/
theorem readArguments_board {g : Grammar} {name : String} (hg : g ∈ runningGrammars)
    (hname : name ∈ ["life", "machine", "inspect", "compare"]) (hrivals : g.rivals = [])
    (hpositional : g.positional = some ⟨"board", [], false, true⟩)
    (invocation : Parsed → Invocation)
    (hcommand : ∀ arguments, readCommand name arguments =
      (g.parse arguments).map fun p => (invocation p, p.extras))
    {path : String} {arguments : List String} {entries : List (String × Value)}
    (hpath : path.startsWith "-" = false) (h : g.Reads arguments entries) :
    readArguments (name :: path :: arguments) =
      .ok (false, some (invocation ⟨entries, some [path], []⟩)) := by
  have happart := apart_of_mem hg
  have hmain : ∀ s ∈ path :: arguments, ∃ argument, mainGrammar.classify s = .ok argument :=
    List.forall_mem_cons.mpr
      ⟨⟨_, classify_of_not_startsWith mainGrammar hpath⟩, h.main happart⟩
  exact readArguments_of_parse hname hmain invocation (hcommand _)
    (h.parse_board happart hrivals hpositional hpath)

theorem readArguments_life {path : String} {arguments : List String}
    {entries : List (String × Value)} (hpath : path.startsWith "-" = false)
    (h : lifeGrammar.Reads arguments entries) :
    readArguments ("life" :: path :: arguments) =
      .ok (false, some (.life (Parsed.life ⟨entries, some [path], []⟩))) :=
  readArguments_board (by simp [runningGrammars]) (by decide) rfl rfl (fun p => .life p.life)
    (fun _ => rfl) hpath h

theorem readArguments_compare {path : String} {arguments : List String}
    {entries : List (String × Value)} (hpath : path.startsWith "-" = false)
    (h : compareGrammar.Reads arguments entries) :
    readArguments ("compare" :: path :: arguments) =
      .ok (false, some (.compare (Parsed.compare ⟨entries, some [path], []⟩))) :=
  readArguments_board (by simp [runningGrammars]) (by decide) rfl rfl
    (fun p => .compare p.compare) (fun _ => rfl) hpath h

theorem readArguments_machine {arguments : List String} {entries : List (String × Value)}
    (h : machineGrammar.Reads arguments entries) (hfree : machineGrammar.Free entries) :
    readArguments ("machine" :: arguments) =
      .ok (false, some (.machine (Parsed.machine ⟨entries, none, []⟩))) :=
  have happart := apart_of_mem (g := machineGrammar) (by simp [runningGrammars])
  readArguments_of_parse (by decide) (h.main happart) (fun p => .machine p.machine) rfl
    (h.parse_options happart rfl hfree)

end SubstitutionAutomata.Command
