import SubstitutionAutomata.Text.Quoted
import SubstitutionAutomata.Text.Upper

/-! Outer-totalistic rules: how many live neighbours bring a cell to life, and how many keep it
alive. Main statement: a set of counts made from a list has the members of the list. -/

namespace SubstitutionAutomata

open Text

/-- A finite set of neighbour counts, in ascending order. -/
structure CountSet where
  toList : List Int
  ascending : toList.Pairwise (· < ·)
  deriving DecidableEq

namespace CountSet

def insertInto (n : Int) : List Int → List Int
  | [] => [n]
  | m :: rest =>
    if n < m then n :: m :: rest else if n = m then m :: rest else m :: insertInto n rest

theorem mem_insertInto (n k : Int) (l : List Int) : k ∈ insertInto n l ↔ k = n ∨ k ∈ l := by
  induction l with
  | nil => simp [insertInto]
  | cons m rest ih =>
    unfold insertInto
    split
    · simp
    · split
      · subst n
        simp
      · simp only [List.mem_cons, ih]
        grind

theorem pairwise_insertInto (n : Int) (l : List Int) (h : l.Pairwise (· < ·)) :
    (insertInto n l).Pairwise (· < ·) := by
  induction l with
  | nil => simp [insertInto]
  | cons m rest ih =>
    obtain ⟨hm, hr⟩ := List.pairwise_cons.mp h
    unfold insertInto
    split
    · rename_i hn
      refine List.pairwise_cons.mpr ⟨fun k hk => ?_, h⟩
      rcases List.mem_cons.mp hk with rfl | hk
      · exact hn
      · exact Int.lt_trans hn (hm k hk)
    · split
      · exact h
      · refine List.pairwise_cons.mpr ⟨fun k hk => ?_, ih hr⟩
        rcases (mem_insertInto n k rest).mp hk with rfl | hk
        · omega
        · exact hm k hk

def empty : CountSet := ⟨[], .nil⟩

def insert (s : CountSet) (n : Int) : CountSet :=
  ⟨insertInto n s.toList, pairwise_insertInto n s.toList s.ascending⟩

def ofList (ns : List Int) : CountSet := ns.foldl insert empty

instance : Membership Int CountSet := ⟨fun s n => n ∈ s.toList⟩

instance (n : Int) (s : CountSet) : Decidable (n ∈ s) := inferInstanceAs (Decidable (n ∈ s.toList))

theorem mem_def (n : Int) (s : CountSet) : n ∈ s ↔ n ∈ s.toList := Iff.rfl

theorem mem_insert (s : CountSet) (n k : Int) : k ∈ s.insert n ↔ k = n ∨ k ∈ s :=
  mem_insertInto n k s.toList

theorem mem_ofList (ns : List Int) (k : Int) : k ∈ ofList ns ↔ k ∈ ns := by
  have h : ∀ s : CountSet, k ∈ ns.foldl insert s ↔ k ∈ s ∨ k ∈ ns := by
    induction ns with
    | nil => simp
    | cons n ns ih =>
      intro s
      rw [List.foldl_cons, ih, mem_insert, List.mem_cons]
      grind
  rw [ofList, h]
  simp [empty, mem_def]

end CountSet

structure Rule where
  birth : CountSet
  survival : CountSet
  deriving DecidableEq

namespace Rule

inductive Error where
  | component (part text : String)
  | unrecognised (text : String)
  | count (c : Char) (text : String)
  deriving DecidableEq, Repr

def Error.message : Error → String
  | component part text => s!"Unrecognised rule component {quoted part} in {quoted text}"
  | unrecognised text => s!"Unrecognised rule {quoted text}"
  | count c text =>
    let digit := c.toString
    s!"Invalid neighbour count {quoted digit} in {quoted text}"

/-- The pieces of a text between its slashes. -/
def components : List Char → List (List Char)
  | [] => [[]]
  | c :: rest =>
    if c = '/' then [] :: components rest
    else match components rest with
      | [] => [[c]]
      | part :: parts => (c :: part) :: parts

/-- The digits after B and those after S among slashed components; of two equal letters the later
component counts. -/
def slashedDigits (text : List Char) :
    List (List Char) → List Char × List Char → Except Error (List Char × List Char)
  | [], found => .ok found
  | ('B' :: digits) :: parts, (_, survival) => slashedDigits text parts (digits, survival)
  | ('S' :: digits) :: parts, (birth, _) => slashedDigits text parts (birth, digits)
  | part :: _, _ => .error (.component (String.ofList part) (String.ofList text))

/-- Without a slash, the first S ends the digits of birth, which a leading B opens. -/
def joinedDigits (text : List Char) : Except Error (List Char × List Char) :=
  match text.dropWhile (· ≠ 'S'), text with
  | _ :: survival, 'B' :: rest => .ok (rest.takeWhile (· ≠ 'S'), survival)
  | _ :: survival, _ => .ok ([], survival)
  | [], 'B' :: birth => .ok (birth, [])
  | [], _ => .error (.unrecognised (String.ofList text))

def isCount (c : Char) : Bool := '0' ≤ c && c ≤ '8'

def counts (digits : List Char) : CountSet :=
  CountSet.ofList (digits.map fun c => (c.toNat : Int) - '0'.toNat)

/-- Reads a rule such as B3/S23 or b36s23; spaces and letter case do not matter. -/
def parse (s : String) : Except Error Rule := do
  let text := (upper s.toList).filter (· ≠ ' ')
  let (birth, survival) ←
    if '/' ∈ text then slashedDigits text (components text) ([], []) else joinedDigits text
  match (birth ++ survival).find? fun c => !isCount c with
  | some c => .error (.count c (String.ofList text))
  | none => .ok ⟨counts birth, counts survival⟩

def text (r : Rule) : String :=
  let birth := String.join (r.birth.toList.map toString)
  let survival := String.join (r.survival.toList.map toString)
  s!"B{birth}/S{survival}"

instance : ToString Rule := ⟨text⟩

/-- Whether a cell with so many live neighbours changes its state. -/
def changes (r : Rule) (alive : Bool) (neighbors : Int) : Bool :=
  if alive then neighbors ∉ r.survival else neighbors ∈ r.birth

def gameOfLife : Rule := ⟨.ofList [3], .ofList [2, 3]⟩

def highLife : Rule := ⟨.ofList [3, 6], .ofList [2, 3]⟩

def seeds : Rule := ⟨.ofList [2], .empty⟩

end Rule

end SubstitutionAutomata
