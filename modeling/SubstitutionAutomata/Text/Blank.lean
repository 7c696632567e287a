/-! Blank characters and the text between them. -/

namespace SubstitutionAutomata.Text

/-- Blanks: the ASCII layout characters, the four ASCII separators, and the spaces and separators
of Unicode. -/
def isBlank (c : Char) : Bool :=
  let n := c.toNat
  (0x09 ≤ n && n ≤ 0x0d) || (0x1c ≤ n && n ≤ 0x20) || n == 0x85 || n == 0xa0 || n == 0x1680 ||
    (0x2000 ≤ n && n ≤ 0x200a) || n == 0x2028 || n == 0x2029 || n == 0x202f || n == 0x205f ||
    n == 0x3000

/-- Removes the characters of a class from both ends. -/
def trim (drop : Char → Bool) (s : List Char) : List Char :=
  ((s.dropWhile drop).reverse.dropWhile drop).reverse

/-- Removes the blanks at both ends. -/
def strip (s : List Char) : List Char := trim isBlank s

end SubstitutionAutomata.Text
