import SubstitutionAutomata.Regex.Basic
import SubstitutionAutomata.Text.Word

/-! Matching at a position of a text. A match is found by passing every way to match a part on to
what has to match after it, in order of preference, until all of it matches. -/

namespace SubstitutionAutomata.Regex

open Text

/-- The captures of a match, latest first: each name with the positions it spans. -/
abbrev Captures := List (String × Nat × Nat)

structure Match where
  stop : Nat
  captures : Captures
  deriving DecidableEq, Repr

/-- Whether `count` characters follow position `p` on its line. -/
def lineHolds (text : Array Char) (p : Nat) : Nat → Bool
  | 0 => true
  | count + 1 => match text[p]? with
    | some c => c != '\n' && lineHolds text (p + 1) count
    | none => false

/-- Tries the positions from `p` to the end of its line, at most `fuel` steps away. -/
def firstOnLine (text : Array Char) (attempt : Nat → Option Match) (p : Nat) : Nat → Option Match
  | 0 => attempt p
  | fuel + 1 => match attempt p with
    | some m => some m
    | none => match text[p]? with
      | some c => if c = '\n' then none else firstOnLine text attempt (p + 1) fuel
      | none => none

/-- Matches at position `p`, after captures `cs`; `next` says how the rest of the match goes on. -/
def run (text : Array Char) :
    Regex → Nat → Captures → (Nat → Captures → Option Match) → Option Match
  | empty, p, cs, next => next p cs
  | char c, p, cs, next => if text[p]? = some c then next (p + 1) cs else none
  | any, p, cs, next => if lineHolds text p 1 then next (p + 1) cs else none
  | word, p, cs, next => match text[p]? with
    | some c => if isWord c then next (p + 1) cs else none
    | none => none
  | anyTimes count, p, cs, next => if lineHolds text p count then next (p + count) cs else none
  | lazyAny, p, cs, next => firstOnLine text (fun q => next q cs) p (text.size - p)
  | seq r s, p, cs, next => run text r p cs fun q cs => run text s q cs next
  | alt r s, p, cs, next => match run text r p cs next with
    | some m => some m
    | none => run text s p cs next
  | group r, p, cs, next => run text r p cs next
  | capture name r, p, cs, next => run text r p cs fun q cs => next q ((name, p, q) :: cs)
  | behind width r, p, cs, next =>
    if width ≤ p then
      match run text r (p - width) cs fun q cs => some ⟨q, cs⟩ with
      | some m => next p m.captures
      | none => none
    else none
  | ahead r, p, cs, next => match run text r p cs fun q cs => some ⟨q, cs⟩ with
    | some m => next p m.captures
    | none => none
  | notAhead r, p, cs, next => match run text r p cs fun q cs => some ⟨q, cs⟩ with
    | some _ => none
    | none => next p cs

/-- The preferred match at a position. -/
def matchAt (r : Regex) (text : Array Char) (p : Nat) : Option Match :=
  r.run text p [] fun q cs => some ⟨q, cs⟩

/-- The preferred match at a position that takes at least one character. -/
def nonemptyMatchAt (r : Regex) (text : Array Char) (p : Nat) : Option Match :=
  r.run text p [] fun q cs => if q = p then none else some ⟨q, cs⟩

/-- The text a capture spans; a capture that took no part spans none. -/
def Match.captured (text : Array Char) (m : Match) (name : String) : List Char :=
  match m.captures.lookup name with
  | some (start, stop) => (text.extract start stop).toList
  | none => []

end SubstitutionAutomata.Regex
