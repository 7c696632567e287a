import SubstitutionAutomata.Regex.Basic

/-! The written form of a regular expression. A reserved character stands for itself after a
backslash. -/

namespace SubstitutionAutomata.Regex

/-- Characters that are written with a backslash: brackets, operators, and those that a layout or a
comment would take away. -/
def isReserved (c : Char) : Bool :=
  "()[]\x7b\x7d?*+-|^$\\.&~# \t\n\r\x0b\x0c".toList.contains c

def escapeChar (c : Char) : List Char := if isReserved c then ['\\', c] else [c]

def escape (s : List Char) : List Char := s.flatMap escapeChar

def text : Regex → List Char
  | empty => []
  | char c => escapeChar c
  | any => ['.']
  | word => ['\\', 'w']
  | anyTimes count => ".\x7b".toList ++ (toString count).toList ++ ['}']
  | lazyAny => ".*?".toList
  | seq r s => r.text ++ s.text
  | alt r s => r.text ++ '|' :: s.text
  | group r => "(?:".toList ++ r.text ++ [')']
  | capture name r => "(?P<".toList ++ name.toList ++ '>' :: r.text ++ [')']
  | behind _ r => "(?<=".toList ++ r.text ++ [')']
  | ahead r => "(?=".toList ++ r.text ++ [')']
  | notAhead r => "(?!".toList ++ r.text ++ [')']

instance : ToString Regex := ⟨fun r => String.ofList r.text⟩

@[simp] theorem text_char (c : Char) : (char c).text = escapeChar c := rfl

@[simp] theorem text_word : word.text = ['\\', 'w'] := rfl

@[simp] theorem text_lazyAny : lazyAny.text = ".*?".toList := rfl

@[simp] theorem text_group (r : Regex) : (group r).text = "(?:".toList ++ r.text ++ [')'] := rfl

@[simp] theorem text_capture (name : String) (r : Regex) :
    (capture name r).text = "(?P<".toList ++ name.toList ++ '>' :: r.text ++ [')'] := rfl

@[simp] theorem text_behind (width : Nat) (r : Regex) :
    (behind width r).text = "(?<=".toList ++ r.text ++ [')'] := rfl

@[simp] theorem text_ahead (r : Regex) : (ahead r).text = "(?=".toList ++ r.text ++ [')'] := rfl

theorem text_concat (rs : List Regex) : (concat rs).text = rs.flatMap text := by
  induction rs with
  | nil => rfl
  | cons r rest ih =>
    cases rest with
    | nil => simp [concat]
    | cons s rest => exact congrArg (r.text ++ ·) ih

end SubstitutionAutomata.Regex
