import SubstitutionAutomata.Proofs.Pattern.Alternation
import SubstitutionAutomata.Proofs.Regex.Names
import SubstitutionAutomata.Proofs.Regex.Splice

/-! # Templates put together from items

A template may write any text next to a reference to any capture of its pattern: every match is
replaced by the texts as they are and by what the captures span. -/

namespace SubstitutionAutomata.Pattern

open Regex Template

/-- Clauses give their captures names that a template can refer to. -/
theorem referable_of_mem_names (p : Pattern) {name : String} (h : name ∈ p.regex.names) :
    Referable name :=
  (named_of_parse p.regex_eq name h).referable

/-- A template of items is read as its items, if the pattern has all captures that it refers to. -/
theorem ofText_join_written (p : Pattern) (items : List Item)
    (h : ∀ name, .reference name ∈ items → name ∈ p.regex.names) :
    ofText p.regex.names (String.join (items.map Item.written)) =
      .ok (items.flatMap Item.parts) := by
  have hparts := Item.parts_join_written items fun name hname =>
    p.referable_of_mem_names (h name hname)
  rw [← hparts]
  apply ofText_eq_ok
  intro name hname
  rw [hparts, Item.capture_mem_flatMap_parts] at hname
  exact h name hname

theorem ofText_references (p : Pattern) (names : List String)
    (h : ∀ name ∈ names, name ∈ p.regex.names) :
    ofText p.regex.names (String.join (names.map reference)) = .ok (names.map .capture) := by
  have hread := p.ofText_join_written (names.map .reference) (by simpa using h)
  rwa [List.map_map, Item.flatMap_parts_references] at hread

/-- A template of escaped texts and of references to captures of the pattern never fails. A pass
replaces every match by the texts unchanged and by what the captures span, in the order in which
they are written, and keeps the rest; a capture that took no part gives nothing. -/
theorem written_template_expands (p : Pattern) (items : List Item)
    (htemplate : p.template = String.join (items.map Item.written))
    (hnames : ∀ name, .reference name ∈ items → name ∈ p.regex.names) :
    ∃ template, ofText p.regex.names p.template = .ok template ∧
      (∀ buffer, p.apply buffer = .ok (p.regex.substitute template buffer)) ∧
      (∀ text q m, template.expand text q m = items.flatMap (Item.value text m)) ∧
      (∀ buffer, p.apply buffer =
        .ok (String.ofList (splice (fun _ m => items.flatMap (Item.value buffer.toList.toArray m))
          buffer.toList 0 (p.regex.allMatches buffer)), (p.regex.allMatches buffer).length)) ∧
      ∀ text (m : Match) name, (∀ span, (name, span) ∉ m.captures) →
        Item.value text m (.reference name) = [] := by
  have hread := p.ofText_join_written items hnames
  rw [← htemplate] at hread
  have happly : ∀ buffer,
      p.apply buffer = .ok (p.regex.substitute (items.flatMap Item.parts) buffer) := by
    intro buffer
    rw [apply, hread]
  have hexpand : ∀ text, expand (items.flatMap Item.parts) text =
      fun _ m => items.flatMap (Item.value text m) := by
    intro text
    funext q m
    exact expand_flatMap_parts text q m items
  refine ⟨_, hread, happly, fun text q m => congrFun (congrFun (hexpand text) q) m, ?_, ?_⟩
  · intro buffer
    rw [happly, substitute_eq_splice, hexpand]
  · exact fun text m name => Match.captured_of_forall_ne text m name

/-- Two clauses with a capture each; the template writes both between texts that look like more
references. -/
def lookalikes : Pattern :=
  ⟨[⟨"(?P<a>x)", "", ["a"]⟩, ⟨"(?P<b_1>y)", "", ["b_1"]⟩],
    "\\\\\\\\\\g<a>1>\\\\g<a>\\g<b_1>0\\\\\\\\",
    .alt (.group (.capture "a" (.char 'x'))) (.group (.capture "b_1" (.char 'y'))), by decide⟩

def lookalikeItems : List Item :=
  [.text "\\\\", .reference "a", .text "1>\\g<a>", .reference "b_1", .text "0\\\\"]

theorem written_template_expands_lookalikes :
    lookalikes.template = String.join (lookalikeItems.map Item.written) ∧
      (∀ name, .reference name ∈ lookalikeItems → name ∈ lookalikes.regex.names) ∧
      lookalikes.regex.matchAt "xy".toList.toArray 1 = some ⟨2, [("b_1", 1, 2)]⟩ ∧
      ∃ template, ofText lookalikes.regex.names lookalikes.template = .ok template ∧
        template.expand "xy".toList.toArray 1 ⟨2, [("b_1", 1, 2)]⟩ =
          "\\\\1>\\g<a>y0\\\\".toList ∧
        lookalikes.apply "x-y" =
          .ok ("\\\\x1>\\g<a>0\\\\-\\\\1>\\g<a>y0\\\\", 2) := by
  have htemplate : lookalikes.template = String.join (lookalikeItems.map Item.written) := by
    decide
  have hnames : ∀ name, .reference name ∈ lookalikeItems → name ∈ lookalikes.regex.names := by
    simp [lookalikeItems, lookalikes, Regex.names]
  obtain ⟨template, hread, -, hexpand, happly, -⟩ :=
    written_template_expands lookalikes lookalikeItems htemplate hnames
  exact ⟨htemplate, hnames, by decide, template, hread, (hexpand _ _ _).trans (by decide),
    (happly "x-y").trans (by decide)⟩

end SubstitutionAutomata.Pattern
