import SubstitutionAutomata.Proofs.Regex.Matching
import SubstitutionAutomata.Proofs.Regex.Reading

/-! # Pieces of fixed text

What the clauses match is fixed text but for a few gaps, and some pieces of it stand inside
captures. Pieces match where the text begins with theirs, and each capture spans its piece. -/

namespace SubstitutionAutomata.Regex

/-- Fixed text, inside a capture if it has a name. -/
structure Piece where
  text : List Char
  name? : Option String

namespace Piece

def items (piece : Piece) : List Regex :=
  match piece.name? with
  | none => piece.text.map char
  | some name => [capture name (literal piece.text)]

/-! ## Reading and width -/

theorem legible_of_mem_items {piece : Piece} {r : Regex} (hr : r ∈ piece.items)
    (h : ∀ name, piece.name? = some name → IsCaptureName name) : Legible r := by
  cases hn : piece.name? with
  | none =>
      obtain ⟨c, -, rfl⟩ : ∃ c ∈ piece.text, char c = r := by simpa [items, hn] using hr
      exact .char c
  | some name =>
      obtain rfl : r = capture name (literal piece.text) := by simpa [items, hn] using hr
      refine .capture name _ (h name hn) fun r hr => ?_
      obtain ⟨c, -, rfl⟩ := List.mem_map.mp hr
      exact .char c

theorem names_items (piece : Piece) : piece.items.flatMap names = piece.name?.toList := by
  cases h : piece.name? with
  | none => simp [items, h, names, List.flatMap_map]
  | some name => simp [items, h, names, names_literal]

theorem names_flatMap_items (pieces : List Piece) :
    (pieces.flatMap items).flatMap names = pieces.filterMap name? := by
  induction pieces with
  | nil => rfl
  | cons piece pieces ih =>
      rw [List.flatMap_cons, List.flatMap_append, ih, names_items, List.filterMap_cons]
      cases piece.name? <;> rfl

theorem fixedBehinds_of_mem_items {piece : Piece} {r : Regex} (hr : r ∈ piece.items) :
    r.fixedBehinds = true := by
  cases hn : piece.name? with
  | none =>
      obtain ⟨c, -, rfl⟩ : ∃ c ∈ piece.text, char c = r := by simpa [items, hn] using hr
      rfl
  | some name =>
      obtain rfl : r = capture name (literal piece.text) := by simpa [items, hn] using hr
      exact fixedBehinds_literal piece.text

theorem width_items (piece : Piece) : (concat piece.items).width = some piece.text.length := by
  cases h : piece.name? with
  | none =>
      have hw := width_literal piece.text
      rw [literal] at hw
      simpa [items, h] using hw
  | some name => simp [items, h, concat, width, width_literal]

theorem width_flatMap_items (pieces : List Piece) :
    (concat (pieces.flatMap items)).width = some (pieces.flatMap Piece.text).length := by
  induction pieces with
  | nil => rfl
  | cons piece pieces ih =>
      rw [List.flatMap_cons, width_concat_append, width_items, ih, List.flatMap_cons,
        List.length_append]
      rfl

/-! ## Matching -/

variable (text : Array Char) (p : ℕ) (cs : Captures) (next : ℕ → Captures → Option Match)

/-- The spans of the captures of pieces whose text starts at position `p`, latest first. -/
def spans (p : ℕ) : List Piece → Captures
  | [] => []
  | piece :: pieces =>
    spans (p + piece.text.length) pieces ++
      (piece.name?.toList.map fun name => (name, p, p + piece.text.length))

theorem run_items (piece : Piece) (rest : List Regex) :
    run text (concat (piece.items ++ rest)) p cs next =
      if piece.text <+: text.toList.drop p then
        run text (concat rest) (p + piece.text.length) (spans p [piece] ++ cs) next
      else none := by
  rw [run_concat_append]
  cases h : piece.name? with
  | none =>
      have hrun := run_literal text p cs (fun q cs => run text (concat rest) q cs next) piece.text
      simpa [items, h, spans, literal] using hrun
  | some name =>
      simp only [items, h, spans, concat, run, run_literal]
      rfl

theorem run_flatMap_items (pieces : List Piece) (rest : List Regex) :
    run text (concat (pieces.flatMap items ++ rest)) p cs next =
      if pieces.flatMap Piece.text <+: text.toList.drop p then
        run text (concat rest) (p + (pieces.flatMap Piece.text).length) (spans p pieces ++ cs) next
      else none := by
  induction pieces generalizing p cs with
  | nil => simp [spans]
  | cons piece pieces ih =>
      rw [List.flatMap_cons, List.append_assoc, run_items]
      simp only [ih, List.flatMap_cons, append_prefix_drop_iff, spans, List.length_append,
        List.append_assoc, List.nil_append, Nat.add_assoc]
      by_cases h : piece.text <+: text.toList.drop p <;> simp [h]

theorem mem_spans {pieces : List Piece} {name : String} {span : ℕ × ℕ}
    (h : (name, span) ∈ spans p pieces)
    (htext : pieces.flatMap Piece.text <+: text.toList.drop p) :
    ∃ piece ∈ pieces, piece.name? = some name ∧
      (text.extract span.1 span.2).toList = piece.text := by
  induction pieces generalizing p with
  | nil => simp [spans] at h
  | cons piece pieces ih =>
      rw [List.flatMap_cons, append_prefix_drop_iff] at htext
      rcases List.mem_append.mp h with h | h
      · obtain ⟨found, hfound, hrest⟩ := ih _ h htext.2
        exact ⟨found, List.mem_cons_of_mem piece hfound, hrest⟩
      · obtain ⟨hname, hspan⟩ : piece.name? = some name ∧ (p, p + piece.text.length) = span := by
          simpa using h
        refine ⟨piece, by simp, hname, ?_⟩
        rw [← hspan]
        exact extract_of_prefix_drop piece.text text p htext.1

theorem exists_mem_spans {pieces : List Piece} {piece : Piece} {name : String}
    (h : piece ∈ pieces) (hname : piece.name? = some name) :
    ∃ span, (name, span) ∈ spans p pieces := by
  induction pieces generalizing p with
  | nil => simp at h
  | cons first pieces ih =>
      rcases List.mem_cons.mp h with rfl | h
      · exact ⟨(p, p + piece.text.length), by simp [spans, hname]⟩
      · obtain ⟨span, hspan⟩ := ih (p + first.text.length) h
        exact ⟨span, List.mem_append_left _ hspan⟩

end Piece

end SubstitutionAutomata.Regex
