import SubstitutionAutomata.Regex.Basic

/-! Tokens of a written regular expression. -/

namespace SubstitutionAutomata.Regex

/-- What a parenthesis opens. -/
inductive Opening where
  | group
  | numbered
  | capture (name : String)
  | behind
  | ahead
  | notAhead
  deriving DecidableEq, Repr

inductive Token where
  | char (c : Char)
  | any
  | word
  | anyTimes (count : Nat)
  | lazyAny
  | opening (kind : Opening)
  | closing
  | bar
  /-- A construct outside the language. -/
  | unknown
  deriving DecidableEq, Repr

/-- Operators that mean nothing on their own. -/
def isOperator (c : Char) : Bool := "[\x7b*+?^$\\".toList.contains c

/-- A letter, a digit or an underscore. Characters beyond ASCII are not told apart. -/
def isNameChar (c : Char) : Bool := c.isAlphanum || c == '_' || 127 < c.toNat

/-- Whether a text may name a capture. No name starts with a digit: numbers count captures. -/
def isName : List Char → Bool
  | [] => false
  | c :: rest => !c.isDigit && (c :: rest).all isNameChar

mutual

/-- The tokens of a text that starts at index `i`, each with the index of its first character. -/
def tokens (i : Nat) : List Char → List (Nat × Token)
  | [] => []
  | '\\' :: 'w' :: rest => (i, .word) :: tokens (i + 2) rest
  | '\\' :: c :: rest => (i, if c.isAlphanum then .unknown else .char c) :: tokens (i + 2) rest
  | '.' :: '*' :: '?' :: rest => (i, .lazyAny) :: tokens (i + 3) rest
  | '.' :: '{' :: rest => countTokens i (i + 2) 0 rest
  | '.' :: rest => (i, .any) :: tokens (i + 1) rest
  | '(' :: '?' :: ':' :: rest => (i, .opening .group) :: tokens (i + 3) rest
  | '(' :: '?' :: '=' :: rest => (i, .opening .ahead) :: tokens (i + 3) rest
  | '(' :: '?' :: '!' :: rest => (i, .opening .notAhead) :: tokens (i + 3) rest
  | '(' :: '?' :: '<' :: '=' :: rest => (i, .opening .behind) :: tokens (i + 4) rest
  | '(' :: '?' :: 'P' :: '<' :: rest => nameTokens i (i + 4) [] rest
  | '(' :: rest => (i, .opening .numbered) :: tokens (i + 1) rest
  | ')' :: rest => (i, .closing) :: tokens (i + 1) rest
  | '|' :: rest => (i, .bar) :: tokens (i + 1) rest
  | c :: rest => (i, if isOperator c then .unknown else .char c) :: tokens (i + 1) rest

/-- The repetition that started at `start`, with `count` read so far. -/
def countTokens (start i count : Nat) : List Char → List (Nat × Token)
  | [] => [(start, .unknown)]
  | '}' :: rest => (start, .anyTimes count) :: tokens (i + 1) rest
  | c :: rest =>
    if c.isDigit then countTokens start (i + 1) (10 * count + (c.toNat - '0'.toNat)) rest
    else [(start, .unknown)]

/-- The capture that started at `start`, with `name` read so far. -/
def nameTokens (start i : Nat) (name : List Char) : List Char → List (Nat × Token)
  | [] => [(start, .unknown)]
  | '>' :: rest =>
    (start, if isName name then .opening (.capture (String.ofList name)) else .unknown) ::
      tokens (i + 1) rest
  | c :: rest => nameTokens start (i + 1) (name ++ [c]) rest

end

end SubstitutionAutomata.Regex
