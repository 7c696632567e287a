import SubstitutionAutomata.Text.Digit
import SubstitutionAutomata.Text.Quoted
import SubstitutionAutomata.Text.Word

/-! Transitions of a one-tape machine and their written form, such as Q0:a/b->R:Q1. -/

namespace SubstitutionAutomata

open Text

/-- Where the head moves. A letter other than L and R moves it to the left, as L does. -/
inductive Direction where
  | left
  | right
  | letter (text : String)
  deriving DecidableEq, Repr

def Direction.text : Direction → String
  | left => "L"
  | right => "R"
  | letter text => text

def Direction.ofText (s : String) : Direction :=
  if s = "L" then left else if s = "R" then right else letter s

/-- In `state` on `symbol`, the machine writes `written`, moves, and goes on in `next`. -/
structure Transition where
  state : String
  symbol : String
  written : String
  direction : Direction
  next : String
  deriving DecidableEq, Repr

namespace Transition

def text (t : Transition) : String :=
  s!"{t.state}:{t.symbol}/{t.written}->{t.direction.text}:{t.next}"

instance : ToString Transition := ⟨text⟩

def direction? : Char → Option Direction
  | 'L' => some .left
  | 'R' => some .right
  | _ => none

/-- Reads the written form of one transition and nothing else. States are a Q with decimal digits of
any script, symbols are single word characters. -/
def parse? (s : String) : Option Transition :=
  match s.toList with
  | 'Q' :: afterQ =>
    let state := afterQ.takeWhile isDigit
    match afterQ.dropWhile isDigit with
    | ':' :: symbol :: '/' :: written :: '-' :: '>' :: move :: ':' :: 'Q' :: next =>
      match direction? move with
      | some direction =>
        if !state.isEmpty && isWord symbol && isWord written && !next.isEmpty &&
            next.all isDigit then
          some ⟨String.ofList ('Q' :: state), symbol.toString, written.toString, direction,
            String.ofList ('Q' :: next)⟩
        else none
      | none => none
    | _ => none
  | _ => none

/-- A line that is not the written form of a transition. -/
structure Malformed where
  line : String
  deriving DecidableEq, Repr

def Malformed.message (e : Malformed) : String :=
  s!"Malformed transition {quoted e.line}: expected Q<n>:<symbol>/<symbol>-><L|R>:Q<n>"

def parse (s : String) : Except Malformed Transition :=
  match parse? s with
  | some t => .ok t
  | none => .error ⟨s⟩

end Transition

end SubstitutionAutomata
