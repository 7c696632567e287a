import SubstitutionAutomata.Text.Quoted

/-! Documents of nested lists and fields, written with two places of indentation per level and with
ASCII characters only. -/

namespace SubstitutionAutomata

open Text

inductive Document where
  | null
  | text (s : String)
  | list (items : List Document)
  | fields (items : List (String × Document))

namespace Document

/-- The four digits of a UTF-16 unit after a backslash and a u. -/
def unitEscape (n : Nat) : List Char := '\\' :: 'u' :: hexDigits 4 n

/-- A character beyond the first plane is written as two units. -/
def escapedChar (c : Char) : List Char :=
  let n := c.toNat
  if c = '"' || c = '\\' then ['\\', c]
  else if c = '\n' then ['\\', 'n']
  else if c = '\r' then ['\\', 'r']
  else if c = '\t' then ['\\', 't']
  else if n = 0x08 then ['\\', 'b']
  else if n = 0x0c then ['\\', 'f']
  else if 0x20 ≤ n && n ≤ 0x7e then [c]
  else if n < 0x10000 then unitEscape n
  else unitEscape (0xd800 + (n - 0x10000) / 0x400) ++ unitEscape (0xdc00 + (n - 0x10000) % 0x400)

def writtenText (s : String) : String :=
  String.ofList ('"' :: s.toList.flatMap escapedChar ++ ['"'])

/-- The items of a list or of fields, each on a line of its own. -/
def block (opening closing indent : String) : List String → String
  | [] => opening ++ closing
  | items =>
    let separator := ",\n" ++ indent ++ "  "
    opening ++ "\n" ++ indent ++ "  " ++ separator.intercalate items ++ "\n" ++ indent ++ closing

mutual

/-- The written form of a document whose first line is indented by `indent`. -/
def written (indent : String) : Document → String
  | null => "null"
  | text s => writtenText s
  | list items => block "[" "]" indent (writtenItems (indent ++ "  ") items)
  | fields items => block "\x7b" "\x7d" indent (writtenFields (indent ++ "  ") items)

def writtenItems (indent : String) : List Document → List String
  | [] => []
  | item :: rest => written indent item :: writtenItems indent rest

def writtenFields (indent : String) : List (String × Document) → List String
  | [] => []
  | (name, item) :: rest =>
    (writtenText name ++ ": " ++ written indent item) :: writtenFields indent rest

end

instance : ToString Document := ⟨written ""⟩

end Document

end SubstitutionAutomata
