/-! Regular expressions of a small language: characters, wildcards within a line, named captures and
assertions about the neighbourhood of a position. Clauses need no more, so the language leaves out
classes of characters other than words, repetitions of anything but the wildcard, anchors and
references back to a capture. The main statements give the width of sequences. -/

namespace SubstitutionAutomata

inductive Regex where
  | empty
  | char (c : Char)
  /-- Any character but a line feed. -/
  | any
  | word
  /-- Exactly `count` characters, none of them a line feed. -/
  | anyTimes (count : Nat)
  /-- As few characters as possible, none of them a line feed. -/
  | lazyAny
  | seq (first rest : Regex)
  /-- The second alternative is tried only where the first leads to no match. -/
  | alt (first second : Regex)
  | group (body : Regex)
  | capture (name : String) (body : Regex)
  /-- Asserts a match of `body` on the `width` characters before the position. -/
  | behind (width : Nat) (body : Regex)
  | ahead (body : Regex)
  | notAhead (body : Regex)
  deriving DecidableEq, Repr

namespace Regex

def concat : List Regex → Regex
  | [] => empty
  | [r] => r
  | r :: rest => seq r (concat rest)

/-- Alternatives in the order in which they are tried. -/
def choice : List Regex → Regex
  | [] => notAhead empty
  | [r] => r
  | r :: rest => alt r (choice rest)

def literal (s : List Char) : Regex := concat (s.map char)

/-- The capture names in the order in which they open. -/
def names : Regex → List String
  | empty | char _ | any | word | anyTimes _ | lazyAny => []
  | seq r s | alt r s => r.names ++ s.names
  | group r | behind _ r | ahead r | notAhead r => r.names
  | capture name r => name :: r.names

/-- The number of characters that every match takes, if all matches take the same. -/
def width : Regex → Option Nat
  | empty | behind _ _ | ahead _ | notAhead _ => some 0
  | char _ | any | word => some 1
  | anyTimes count => some count
  | lazyAny => none
  | seq r s => do return (← r.width) + (← s.width)
  | alt r s => do
    let n ← r.width
    let m ← s.width
    if n = m then some n else none
  | group r | capture _ r => r.width

/-- The fewest characters that a match takes. -/
def shortest : Regex → Nat
  | empty | lazyAny | behind _ _ | ahead _ | notAhead _ => 0
  | char _ | any | word => 1
  | anyTimes count => count
  | seq r s => r.shortest + s.shortest
  | alt r s => min r.shortest s.shortest
  | group r | capture _ r => r.shortest

/-- Repetitions stay below this count, and look-behinds step back no further. -/
def repeatLimit : Nat := 4294967295

/-- Whether the body of every look-behind has the width that the look-behind steps back. -/
def fixedBehinds : Regex → Bool
  | empty | char _ | any | word | anyTimes _ | lazyAny => true
  | seq r s | alt r s => r.fixedBehinds && s.fixedBehinds
  | group r | capture _ r | ahead r | notAhead r => r.fixedBehinds
  | behind width r => r.width == some width && width ≤ repeatLimit && r.fixedBehinds

theorem width_concat_cons (r : Regex) (rest : List Regex) :
    (concat (r :: rest)).width = do return (← r.width) + (← (concat rest).width) := by
  cases rest with
  | nil => cases h : r.width <;> simp [concat, width, h]
  | cons s rest => rfl

theorem width_literal (s : List Char) : (literal s).width = some s.length := by
  induction s with
  | nil => rfl
  | cons c s ih =>
    simp only [literal, List.map_cons, width_concat_cons] at ih ⊢
    simp [ih, width, Nat.add_comm]

theorem names_literal (s : List Char) : (literal s).names = [] := by
  induction s with
  | nil => rfl
  | cons c s ih => cases s <;> simp_all [literal, concat, names]

end Regex

end SubstitutionAutomata
