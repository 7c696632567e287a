import SubstitutionAutomata.Board.File
import SubstitutionAutomata.Machine.Clause
import SubstitutionAutomata.Machine.Configuration

/-! Tapes in flat buffers. The head record stands at the place of the head: it lists all states and
symbols, and then the current state and the text under the head, between two marks. -/

namespace SubstitutionAutomata

open Text

structure Tape where
  definition : Definition
  /-- How many blank cells surround the input, half of them on each side. -/
  length : Int
  emptySymbol : String

namespace Tape

def defaultLength : Int := 100

def defaultEmptySymbol : String := "_"

inductive Error where
  | unknownSymbols (symbols : List Char)
  | headCount (count : Nat)
  deriving DecidableEq, Repr

def Error.message : Error → String
  | unknownSymbols symbols =>
    let text := String.ofList symbols
    s!"Tape input contains unknown symbols {quoted text}"
  | headCount count => s!"Expected exactly one head record, found {count}"

def isKnown (t : Tape) (c : Char) : Bool :=
  t.definition.symbols.contains c.toString || t.emptySymbol = c.toString

/-- Refuses symbols that no transition mentions, the empty symbol apart. -/
def validate (t : Tape) (content : String) : Except Error Unit :=
  match Board.unknownSymbols t.isKnown content.toList with
  | [] => .ok ()
  | symbols => .error (.unknownSymbols symbols)

/-- The blank cells on each side; a negative length gives none. -/
def padding (t : Tape) : String := String.join (List.replicate (t.length / 2).toNat t.emptySymbol)

/-- What every head record starts with. -/
def recordStart (t : Tape) : String :=
  let mark := headMark.toString
  let listing := t.definition.listing
  s!"{mark}{listing}-"

def encodeHead (t : Tape) (c : Configuration) : String :=
  let mark := headMark.toString
  s!"{c.left}{t.recordStart}{c.state}:{c.cursor}{mark}{c.right}"

/-- The head on the first symbol of a content; on no content it is on a blank cell. -/
def start (t : Tape) (content state : String) : Configuration :=
  match content.toList with
  | [] => ⟨t.padding, state, t.emptySymbol, t.padding⟩
  | c :: rest => ⟨t.padding, state, c.toString, String.ofList rest ++ t.padding⟩

/-- The buffer with a content on a blank tape; an empty state stands for the machine's first one. -/
def encode (t : Tape) (content state : String) : String :=
  t.encodeHead (t.start content (if state.isEmpty then t.definition.initialState else state))

def encodeStrict (t : Tape) (content state : String) : Except Error String :=
  match t.validate content with
  | .error e => .error e
  | .ok () => .ok (t.encode content state)

/-- What remains of a text after a start that it has. -/
def afterStart? : List Char → List Char → Option (List Char)
  | [], s => some s
  | _ :: _, [] => none
  | c :: start, x :: s => if c = x then afterStart? start s else none

/-- The head record at the front of a text: its state, the character under the head, and what
follows. The state is a Q with digits, and the character is not a line feed. -/
def recordAt? (start s : List Char) : Option (List Char × Char × List Char) :=
  match afterStart? start s with
  | some ('Q' :: rest) =>
    let digits := rest.takeWhile isDigit
    match rest.dropWhile isDigit with
    | ':' :: cursor :: mark :: after =>
      if !digits.isEmpty && cursor ≠ '\n' && mark = headMark then
        some ('Q' :: digits, cursor, after)
      else none
    | _ => none
  | _ => none

/-- The head records of a text from left to right, no two of which overlap. The first `skip`
characters belong to the latest one, and `before` holds what stands before the text, in reverse. -/
def records (start before : List Char) : Nat → List Char → List Configuration
  | _, [] => []
  | skip + 1, c :: rest => records start (c :: before) skip rest
  | 0, c :: rest =>
    match recordAt? start (c :: rest) with
    | some (state, cursor, after) =>
      ⟨String.ofList before.reverse, String.ofList state, cursor.toString, String.ofList after⟩ ::
        records start (c :: before) (rest.length - after.length) rest
    | none => records start (c :: before) 0 rest

def decode (t : Tape) (buffer : String) : Except Error Configuration :=
  match records t.recordStart.toList [] 0 buffer.toList with
  | [c] => .ok c
  | cs => .error (.headCount cs.length)

end Tape

end SubstitutionAutomata
