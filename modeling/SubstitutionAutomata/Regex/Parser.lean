import SubstitutionAutomata.Regex.Token
import SubstitutionAutomata.Text.Quoted

/-! Reading a written regular expression: a stack holds the open parentheses. -/

namespace SubstitutionAutomata.Regex

open Text

inductive SyntaxFault where
  | redefinition (name : String) (number earlier position : Nat)
  | unterminated (position : Nat)
  | unbalanced (position : Nat)
  | lookBehindWidth
  | lookBehindTooFar
  | repetition
  | unknown (position : Nat)
  deriving DecidableEq, Repr

namespace SyntaxFault

def position? : SyntaxFault → Option Nat
  | redefinition _ _ _ position | unterminated position | unbalanced position | unknown position =>
    some position
  | lookBehindWidth | lookBehindTooFar | repetition => none

def message : SyntaxFault → String
  | redefinition name number earlier position =>
    s!"redefinition of group name {quoted name} as group {number}; " ++
      s!"was group {earlier} at position {position}"
  | unterminated position => s!"missing ), unterminated subpattern at position {position}"
  | unbalanced position => s!"unbalanced parenthesis at position {position}"
  | lookBehindWidth => "look-behind requires fixed-width pattern"
  | lookBehindTooFar => "looks too much behind"
  | repetition => "the repetition number is too large"
  | unknown position => s!"unknown construct at position {position}"

end SyntaxFault

/-- The line and the column of a position in a text, both counted from 1. -/
def lineColumn (s : List Char) (position : Nat) : Nat × Nat :=
  let before := s.take position
  (before.count '\n' + 1, (before.reverse.takeWhile (· ≠ '\n')).length + 1)

/-- What is wrong with a text and, if the text has several lines, the line and column of it. -/
structure ParseError where
  fault : SyntaxFault
  place : Option (Nat × Nat)
  deriving DecidableEq, Repr

namespace ParseError

def ofFault (s : List Char) (fault : SyntaxFault) : ParseError :=
  ⟨fault, if s.contains '\n' then fault.position?.map (lineColumn s) else none⟩

def message (e : ParseError) : String :=
  match e.place with
  | some (line, column) => s!"{e.fault.message} (line {line}, column {column})"
  | none => e.fault.message

end ParseError

/-- An open parenthesis, its finished alternatives and the items of the current one, both latest
first. -/
structure Frame where
  kind : Opening
  position : Nat
  alternatives : List Regex
  items : List Regex
  deriving DecidableEq, Repr

namespace Frame

def push (frame : Frame) (r : Regex) : Frame := { frame with items := r :: frame.items }

def nextAlternative (frame : Frame) : Frame :=
  { frame with alternatives := concat frame.items.reverse :: frame.alternatives, items := [] }

def body (frame : Frame) : Regex := choice frame.nextAlternative.alternatives.reverse

/-- The item that a closing parenthesis completes. -/
def close (frame : Frame) : Regex :=
  match frame.kind with
  | .group | .numbered => group frame.body
  | .capture name => capture name frame.body
  | .behind => behind (frame.body.width.getD 0) frame.body
  | .ahead => ahead frame.body
  | .notAhead => notAhead frame.body

end Frame

/-- The captures opened so far: how many, and the number that each name has. -/
structure Numbering where
  count : Nat
  numbers : List (String × Nat)
  deriving DecidableEq, Repr

/-- Gives the next capture its number; a name is given once. -/
def Numbering.open (numbering : Numbering) (position : Nat) : Opening → Except SyntaxFault Numbering
  | .numbered => .ok { numbering with count := numbering.count + 1 }
  | .capture name =>
    match numbering.numbers.lookup name with
    | some earlier =>
      .error (.redefinition name (numbering.count + 1) earlier (position + "(?P<".length))
    | none => .ok ⟨numbering.count + 1, (name, numbering.count + 1) :: numbering.numbers⟩
  | _ => .ok numbering

/-- Reads the tokens inside `top`, whose enclosing parentheses are `outer`. -/
def parseTokens (top : Frame) (outer : List Frame) (numbering : Numbering) :
    List (Nat × Token) → Except SyntaxFault Regex
  | [] => match outer with
    | [] => .ok top.body
    | _ :: _ => .error (.unterminated top.position)
  | (i, .opening kind) :: rest =>
    match numbering.open i kind with
    | .error e => .error e
    | .ok numbering => parseTokens ⟨kind, i, [], []⟩ (top :: outer) numbering rest
  | (i, .closing) :: rest => match outer with
    | [] => .error (.unbalanced i)
    | parent :: outer => parseTokens (parent.push top.close) outer numbering rest
  | (_, .bar) :: rest => parseTokens top.nextAlternative outer numbering rest
  | (i, .unknown) :: _ => .error (.unknown i)
  | (_, .anyTimes count) :: rest =>
    if repeatLimit ≤ count then .error .repetition
    else parseTokens (top.push (.anyTimes count)) outer numbering rest
  | (_, .char c) :: rest => parseTokens (top.push (.char c)) outer numbering rest
  | (_, .any) :: rest => parseTokens (top.push .any) outer numbering rest
  | (_, .word) :: rest => parseTokens (top.push .word) outer numbering rest
  | (_, .lazyAny) :: rest => parseTokens (top.push .lazyAny) outer numbering rest

/-- What is wrong with the first look-behind that is refused, an outer one before those inside. -/
def behindFault : Regex → SyntaxFault
  | seq r s | alt r s => if r.fixedBehinds then behindFault s else behindFault r
  | group r | capture _ r | ahead r | notAhead r => behindFault r
  | behind width r =>
    if repeatLimit < r.shortest then .lookBehindTooFar
    else if r.width = some width then behindFault r
    else .lookBehindWidth
  | empty | char _ | any | word | anyTimes _ | lazyAny => .lookBehindWidth

/-- Every other fault of a text is found before that of a look-behind is. -/
def parse (s : List Char) : Except ParseError Regex :=
  match parseTokens ⟨.group, 0, [], []⟩ [] ⟨0, []⟩ (tokens 0 s) with
  | .error fault => .error (.ofFault s fault)
  | .ok r => if r.fixedBehinds then .ok r else .error (.ofFault s (behindFault r))

end SubstitutionAutomata.Regex
