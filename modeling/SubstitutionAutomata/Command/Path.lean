/-! Paths of files. -/

namespace SubstitutionAutomata.Command.Path

/-- The slashes that make a path absolute. Two slashes may name a root of their own, and more than
two stand for one. -/
def root (path : String) : String :=
  match path.toList with
  | '/' :: '/' :: '/' :: _ => "/"
  | '/' :: '/' :: _ => "//"
  | '/' :: _ => "/"
  | _ => ""

/-- The names on a path; empty names and the name of the current directory stand for nothing. -/
def parts (path : String) : List String :=
  (path.splitOn "/").filter fun part => part ≠ "" && part ≠ "."

def ofParts (parts : List String) : String := "/".intercalate parts

/-- The path of some names below a root; the current directory is a dot. -/
def ofRoot (root : String) (parts : List String) : String :=
  if root.isEmpty && parts.isEmpty then "." else root ++ ofParts parts

/-- The path with no more than its names. -/
def normal (path : String) : String := ofRoot (root path) (parts path)

/-- The directory that holds what a path names. -/
def parent (path : String) : String := ofRoot (root path) (parts path).dropLast

/-- The end of a file's name from its last dot on, in lower case. Dots that a name starts with do
not count. -/
def extension (path : String) : String :=
  let name := (path.splitOn "/").getLast?.getD ""
  let stem := name.toList.dropWhile (· = '.')
  if stem.contains '.' then
    String.ofList ('.' :: (stem.reverse.takeWhile (· ≠ '.')).reverse.map Char.toLower)
  else ""

end SubstitutionAutomata.Command.Path
