import SubstitutionAutomata.Regex.Template

/-! One pass of replacements from left to right. Matches never overlap, all of them are found in the
text as it was before the pass, and two empty matches never share a place. -/

namespace SubstitutionAutomata.Regex

/-- A text after replacements, and their number. -/
abbrev Replaced := List Char × Nat

def Replaced.keep (c : Char) (rest : Replaced) : Replaced := (c :: rest.1, rest.2)

def Replaced.insert (replacement : List Char) (rest : Replaced) : Replaced :=
  (replacement ++ rest.1, rest.2 + 1)

/-- The pass from position `p` on, where `rest` is the text there and its first `skip` characters
belong to the latest match. -/
def substituteFrom (r : Regex) (template : Template) (text : Array Char) :
    List Char → Nat → Nat → Replaced
  | _ :: rest, p, skip + 1 => substituteFrom r template text rest (p + 1) skip
  | [], p, _ =>
    match r.matchAt text p with
    | some m => Replaced.insert (template.expand text p m) ([], 0)
    | none => ([], 0)
  | c :: rest, p, 0 =>
    match r.matchAt text p with
    | none => (substituteFrom r template text rest (p + 1) 0).keep c
    | some m =>
      Replaced.insert (template.expand text p m) <|
        if p < m.stop then substituteFrom r template text rest (p + 1) (m.stop - p - 1)
        else match r.nonemptyMatchAt text p with
          | none => (substituteFrom r template text rest (p + 1) 0).keep c
          | some m =>
            Replaced.insert (template.expand text p m)
              (substituteFrom r template text rest (p + 1) (m.stop - p - 1))

def substitute (r : Regex) (template : Template) (s : String) : String × Nat :=
  let text := s.toList
  let (replaced, count) := r.substituteFrom template text.toArray text 0 0
  (String.ofList replaced, count)

end SubstitutionAutomata.Regex
