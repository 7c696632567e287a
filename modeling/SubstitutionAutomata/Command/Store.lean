import SubstitutionAutomata.Command.Script

/-! A store of files by their relative paths. -/

namespace SubstitutionAutomata.Command

inductive Entry where
  | bytes (bytes : List UInt8)
  | written (content : Content)
  | directory

/-- Files and directories under the parts of their paths. What leads to an entry is a directory. -/
abbrev Store := List (List String × Entry)

namespace Store

def isDirectory (s : Store) (parts : List String) : Bool :=
  parts.isEmpty || s.any fun (key, entry) =>
    (key == parts && entry matches .directory) || (parts.isPrefixOf key && key != parts)

def isFile (s : Store) (parts : List String) : Bool :=
  s.any fun (key, entry) => key == parts && !(entry matches .directory)

/-- Whether a file stands where the path needs a directory. -/
def blocked (s : Store) (parts : List String) : Bool :=
  (List.range parts.length).any fun n => s.isFile (parts.take n)

def content (entry : Entry) : List UInt8 :=
  match entry with
  | .bytes bytes => bytes
  | .written (.text s) => s.toUTF8.toList
  | .written (.animation _) | .directory => []

def read (s : Store) (path : String) : Except FileError (List UInt8) :=
  let parts := Path.parts path
  if path.isEmpty then .error (.missing path)
  else if s.blocked parts || (s.isFile parts && path.endsWith "/") then .error (.notDirectory path)
  else if s.isDirectory parts then .error (.directory path)
  else match s.find? fun (key, _) => key == parts with
    | some (_, entry) => .ok (content entry)
    | none => .error (.missing path)

/-- Writes a file and the directories that lead to it; a later file takes the place of an earlier
one. -/
def write (s : Store) (path : String) (content : Content) : Except FileError Store :=
  let parts := Path.parts path
  let parent := parts.dropLast
  if s.isFile parent then .error (.occupied (Path.ofParts parent))
  else if s.blocked parent then .error (.notDirectory (Path.ofParts parent))
  else if s.isDirectory parts then .error (.directory path)
  else .ok ((parts, .written content) :: s.filter fun (key, _) => key != parts)

/-- The files that were written, and what they hold. -/
def written (s : Store) : List (String × Content) :=
  s.filterMap fun (key, entry) => match entry with
    | .written content => some (Path.ofParts key, content)
    | _ => none

end Store

end SubstitutionAutomata.Command
