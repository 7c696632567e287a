/-! Lines of a text. Main statement: only the empty text has no line. -/

namespace SubstitutionAutomata.Text

/-- Line breaks: line feed, carriage return, vertical tab, form feed, the file, group and record
separators, next line, and the line and paragraph separators. -/
def isBreak (c : Char) : Bool :=
  let n := c.toNat
  (0x0a ≤ n && n ≤ 0x0d) || (0x1c ≤ n && n ≤ 0x1e) || n == 0x85 || n == 0x2028 || n == 0x2029

/-- A carriage return with a line feed, and a lone carriage return, become one line feed. -/
def joinReturns : List Char → List Char
  | [] => []
  | '\r' :: '\n' :: rest => '\n' :: joinReturns rest
  | '\r' :: rest => '\n' :: joinReturns rest
  | c :: rest => c :: joinReturns rest

/-- Cuts at every break; a final break opens no further line. -/
def splitBreaks : List Char → List (List Char)
  | [] => []
  | c :: rest =>
    if isBreak c then [] :: splitBreaks rest
    else match splitBreaks rest with
      | [] => [[c]]
      | line :: lines => (c :: line) :: lines

def lines (s : String) : List String :=
  (splitBreaks (joinReturns s.toList)).map String.ofList

theorem splitBreaks_eq_nil_iff (s : List Char) : splitBreaks s = [] ↔ s = [] := by
  cases s with
  | nil => simp [splitBreaks]
  | cons c rest =>
    rw [splitBreaks]
    split
    · simp
    · split <;> simp

theorem joinReturns_eq_nil_iff (s : List Char) : joinReturns s = [] ↔ s = [] := by
  fun_cases joinReturns s <;> simp

theorem lines_eq_nil_iff (s : String) : lines s = [] ↔ s = "" := by
  rw [lines, List.map_eq_nil_iff, splitBreaks_eq_nil_iff, joinReturns_eq_nil_iff,
    String.toList_eq_nil_iff]

end SubstitutionAutomata.Text
