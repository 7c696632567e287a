import SubstitutionAutomata.Text.Printable

/-! Quoted text, the way messages show a value: between quotes, on one line, with escapes for what
does not print. -/

namespace SubstitutionAutomata.Text

def hexDigit (n : Nat) : Char := (Nat.digitChar (n % 16))

/-- The last `width` digits of a number in base sixteen, in lower case. -/
def hexDigits : Nat → Nat → List Char
  | 0, _ => []
  | width + 1, n => hexDigits width (n / 16) ++ [hexDigit n]

/-- A single quote delimits, unless the text holds one and no double quote. -/
def delimiter (s : List Char) : Char :=
  if s.contains '\'' && !s.contains '"' then '"' else '\''

/-- Two digits for a code point below 256, four below 65536, else eight. -/
def codeEscape (c : Char) : List Char :=
  let n := c.toNat
  if n < 0x100 then '\\' :: 'x' :: hexDigits 2 n
  else if n < 0x10000 then '\\' :: 'u' :: hexDigits 4 n
  else '\\' :: 'U' :: hexDigits 8 n

def quotedChar (delim : Char) (c : Char) : List Char :=
  if c = delim || c = '\\' then ['\\', c]
  else if c = '\n' then ['\\', 'n']
  else if c = '\r' then ['\\', 'r']
  else if c = '\t' then ['\\', 't']
  else if isPrintable c then [c]
  else codeEscape c

def quoted (s : String) : String :=
  let delim := delimiter s.toList
  String.ofList (delim :: s.toList.flatMap (quotedChar delim) ++ [delim])

end SubstitutionAutomata.Text
