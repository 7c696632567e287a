import SubstitutionAutomata.Regex.Match
import SubstitutionAutomata.Text.Quoted

/-! Replacement templates: literal characters and references to captures. Of all escapes only a
doubled backslash and a reference by name, or to the whole match, are read as such, since rule sets
write no other. Any other backslash stands for itself. -/

namespace SubstitutionAutomata.Regex

open Text

inductive TemplatePart where
  | char (c : Char)
  | whole
  | capture (name : String)
  deriving DecidableEq, Repr

abbrev Template := List TemplatePart

namespace Template

/-- How a reference to a capture is written. -/
def reference (name : String) : String := s!"\\g<{name}>"

/-- A backslash is written twice, so that it starts no reference. -/
def escapeBackslashes : List Char → List Char
  | [] => []
  | c :: rest =>
    if c = '\\' then '\\' :: '\\' :: escapeBackslashes rest else c :: escapeBackslashes rest

def escape (s : String) : String := String.ofList (escapeBackslashes s.toList)

/-- The part a reference stands for; the name 0 stands for the whole match. -/
def referenced (name : List Char) : TemplatePart :=
  if name = ['0'] then .whole else .capture (String.ofList name)

mutual

def parts : List Char → Template
  | [] => []
  | '\\' :: '\\' :: rest => .char '\\' :: parts rest
  | '\\' :: 'g' :: '<' :: rest => referenceParts [] rest
  | c :: rest => .char c :: parts rest

/-- A reference of which `name` is read so far. -/
def referenceParts (name : List Char) : List Char → Template
  | [] => []
  | '>' :: rest => referenced name :: parts rest
  | c :: rest => referenceParts (name ++ [c]) rest

end

inductive Fault where
  | unknownGroup (name : String)
  deriving DecidableEq, Repr

def Fault.message : Fault → String
  | unknownGroup name => s!"unknown group name {quoted name}"

/-- Reads a template for an expression with the given captures. The first reference to another
name is a fault. -/
def ofText (names : List String) (s : String) : Except Fault Template :=
  let template := parts s.toList
  match template.findSome? fun
      | .capture name => if names.contains name then none else some name
      | _ => none with
  | some name => .error (.unknownGroup name)
  | none => .ok template

/-- What replaces the match `m` that starts at `p`. -/
def expand (template : Template) (text : Array Char) (p : Nat) (m : Match) : List Char :=
  template.flatMap fun
    | .char c => [c]
    | .whole => (text.extract p m.stop).toList
    | .capture name => m.captured text name

end Template

end SubstitutionAutomata.Regex
