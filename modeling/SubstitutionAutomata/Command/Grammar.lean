import SubstitutionAutomata.Text.Numeral
import SubstitutionAutomata.Text.Quoted

/-! Command lines of options and one positional argument. A long option may be cut short where no
other option starts alike, a value may follow an option after `=` or, for a short one, at once, and
negative numbers are values. -/

namespace SubstitutionAutomata.Command

open Text

inductive ValueKind where
  | flag
  | help
  | text
  | integer
  | seconds
  | choice (choices : List String)
  deriving DecidableEq, Repr

inductive Value where
  | flag
  | text (s : String)
  | integer (n : Int)
  | seconds (x : Seconds)
  deriving DecidableEq, Repr

structure OptionSpec where
  /-- The short name, if there is one, and the long name. -/
  names : List String
  kind : ValueKind
  deriving DecidableEq, Repr

namespace OptionSpec

def key (o : OptionSpec) : String := o.names.getLast?.getD ""

def title (o : OptionSpec) : String := "/".intercalate o.names

def takesValue (o : OptionSpec) : Bool := o.kind ≠ .flag && o.kind ≠ .help

end OptionSpec

/-- The positional argument: its name and, if there are any, the only texts it may be. One that
takes the rest takes all arguments after it as well. -/
structure Positional where
  name : String
  choices : List String
  takesRest : Bool
  required : Bool
  deriving DecidableEq, Repr

structure Grammar where
  program : String
  options : List OptionSpec
  positional : Option Positional
  /-- The keys of options that exclude each other. -/
  rivals : List (String × String)

/-- Why a command line is refused. -/
inductive Refusal where
  | ambiguous (argument : String) (candidates : List String)
  | noValue (title : String)
  | ignored (title explicit : String)
  | invalid (title kind value : String)
  | choice (title value : String) (choices : List String)
  | rival (title other : String)
  | required (name : String)
  | unrecognized (arguments : List String)
  deriving DecidableEq, Repr

def Refusal.message : Refusal → String
  | ambiguous argument candidates =>
    let options := ", ".intercalate candidates
    s!"ambiguous option: {argument} could match {options}"
  | noValue title => s!"argument {title}: expected one argument"
  | ignored title explicit => s!"argument {title}: ignored explicit argument {quoted explicit}"
  | invalid title kind value => s!"argument {title}: invalid {kind} value: {quoted value}"
  | choice title value choices =>
    let options := ", ".intercalate (choices.map quoted)
    s!"argument {title}: invalid choice: {quoted value} (choose from {options})"
  | rival title other => s!"argument {title}: not allowed with argument {other}"
  | required name => s!"the following arguments are required: {name}"
  | unrecognized arguments =>
    let words := " ".intercalate arguments
    s!"unrecognized arguments: {words}"

/-- A command line ends early when it is refused or asks for help. -/
inductive Halt where
  | refused (program : String) (reason : Refusal)
  | help
  deriving DecidableEq, Repr

/-- An option as it is written: its name in full, and the value written with it, after `=` or at
once. -/
structure Written where
  spec : OptionSpec
  name : String
  explicit : Option String
  afterEquals : Bool
  deriving DecidableEq, Repr

inductive Argument where
  | separator
  | value (s : String)
  | option (o : Written)
  | unknownOption (s : String)
  deriving DecidableEq, Repr

namespace Grammar

def find? (g : Grammar) (name : String) : Option OptionSpec :=
  g.options.find? fun o => o.names.contains name

/-- All names in the order of the options, each with its option. -/
def names (g : Grammar) : List (String × OptionSpec) :=
  g.options.flatMap fun o => o.names.map fun name => (name, o)

/-- The text before the first `=` and the text after it, if there is one. -/
def splitValue (s : String) : String × Option String :=
  let text := s.toList
  match text.dropWhile (· ≠ '=') with
  | _ :: value => (String.ofList (text.takeWhile (· ≠ '=')), some (String.ofList value))
  | [] => (s, none)

/-- The options that an argument may stand for, when it is no option's name in full. -/
def candidates (g : Grammar) (s : String) : List Written :=
  if s.startsWith "--" then
    let (start, value) := splitValue s
    (g.names.filter fun (name, _) => name.startsWith start).map fun (name, o) =>
      ⟨o, name, value, true⟩
  else
    let short := String.ofList (s.toList.take 2)
    g.names.filterMap fun (name, o) =>
      if name = short then some ⟨o, name, some (String.ofList (s.toList.drop 2)), false⟩
      else if name.startsWith s then some ⟨o, name, none, false⟩
      else none

/-- A minus sign before digits, among which there may be a point that digits follow. -/
def isNegativeNumber (s : String) : Bool :=
  match s.toList with
  | '-' :: body =>
    let body := if body.getLast? = some '\n' then body.dropLast else body
    match body.dropWhile isDigit with
    | [] => !body.isEmpty
    | '.' :: fraction => !fraction.isEmpty && fraction.all isDigit
    | _ => false
  | _ => false

/-- An argument that starts with a minus sign is an option, unless it is that sign alone, a number,
or has a space in it and names no option. -/
def classify (g : Grammar) (s : String) : Except Refusal Argument :=
  if !s.startsWith "-" || s = "-" then .ok (.value s)
  else match g.find? s with
    | some o => .ok (.option ⟨o, s, none, false⟩)
    | none =>
      let (name, value) := splitValue s
      match value, g.find? name with
      | some v, some o => .ok (.option ⟨o, name, some v, true⟩)
      | _, _ => match g.candidates s with
        | [w] => .ok (.option w)
        | [] => .ok (if isNegativeNumber s || s.contains ' ' then .value s else .unknownOption s)
        | ws => .error (.ambiguous s (ws.map Written.name))

/-- After a separator all arguments are values. -/
def classifyAll (g : Grammar) : List String → Except Refusal (List Argument)
  | [] => .ok []
  | "--" :: rest => .ok (.separator :: rest.map .value)
  | s :: rest => do return (← g.classify s) :: (← g.classifyAll rest)

end Grammar

/-- What has been read: values under the keys of their options, latest last, the positional argument
with what it takes along, and arguments that belong to nothing. -/
structure Parsed where
  values : List (String × Value)
  positional : Option (List String)
  extras : List String
  deriving DecidableEq, Repr

namespace Parsed

def lookup? (p : Parsed) (key : String) : Option Value := p.values.reverse.lookup key

def isSet (p : Parsed) (key : String) : Bool := (p.lookup? key).isSome

def text? (p : Parsed) (key : String) : Option String :=
  match p.lookup? key with
  | some (.text s) => some s
  | _ => none

def integer? (p : Parsed) (key : String) : Option Int :=
  match p.lookup? key with
  | some (.integer n) => some n
  | _ => none

def seconds? (p : Parsed) (key : String) : Option Seconds :=
  match p.lookup? key with
  | some (.seconds x) => some x
  | _ => none

/-- All texts given under a key. -/
def texts (p : Parsed) (key : String) : List String :=
  p.values.filterMap fun
    | (k, .text s) => if k = key then some s else none
    | _ => none

end Parsed

namespace Grammar

def checkChoice (title : String) (choices : List String) (s : String) : Except Refusal Unit :=
  if choices.isEmpty || choices.contains s then .ok () else .error (.choice title s choices)

def readValue (o : OptionSpec) (s : String) : Except Refusal Value :=
  match o.kind with
  | .flag | .help => .ok .flag
  | .text => .ok (.text s)
  | .integer => match int? s with
    | some n => .ok (.integer n)
    | none => .error (.invalid o.title "int" s)
  | .seconds => match Text.seconds? s with
    | some x => .ok (.seconds x)
    | none => .error (.invalid o.title "float" s)
  | .choice choices => (checkChoice o.title choices s).map fun _ => .text s

/-- The first option given before that excludes an option. -/
def rival? (g : Grammar) (p : Parsed) (o : OptionSpec) : Option OptionSpec :=
  g.rivals.findSome? fun (a, b) =>
    if a = o.key && p.isSet b then g.find? b else if b = o.key && p.isSet a then g.find? a else none

def refuse {α : Type} (g : Grammar) (r : Except Refusal α) : Except Halt α :=
  r.mapError (.refused g.program)

def add (g : Grammar) (p : Parsed) (o : OptionSpec) (s : String) : Except Halt Parsed := do
  if o.kind = .help then throw .help
  let v ← g.refuse (readValue o s)
  match g.rival? p o with
  | some other => g.refuse (.error (.rival o.title other.title))
  | none => return { p with values := p.values ++ [(o.key, v)] }

def addFlags (g : Grammar) (p : Parsed) (flags : List OptionSpec) : Except Halt Parsed :=
  flags.foldlM (fun p o => g.add p o "") p

/-- What one argument asks for: flags, then perhaps an option with its value, which is the next
argument if it is not written here, or else perhaps letters that mean nothing. -/
structure Request where
  flags : List OptionSpec
  last : Option (OptionSpec × Option String)
  unknown : Option String

def Request.after (o : OptionSpec) (r : Request) : Request := { r with flags := o :: r.flags }

/-- Letters written after the letter of a flag are options in turn. -/
def letters (g : Grammar) (o : OptionSpec) (afterEquals : Bool) : List Char → Except Refusal Request
  | [] => .ok ⟨[o], none, none⟩
  | c :: rest =>
    if afterEquals || c = '-' then .error (.ignored o.title (String.ofList (c :: rest)))
    else match g.find? (String.ofList ['-', c]) with
      | none => .ok ⟨[o], none, some (String.ofList ('-' :: c :: rest))⟩
      | some next => match rest with
        | '=' :: value =>
          if next.takesValue then .ok ⟨[o], some (next, some (String.ofList value)), none⟩
          else .error (.ignored next.title (String.ofList value))
        | rest =>
          if next.takesValue then
            let value := if rest.isEmpty then none else some (String.ofList rest)
            .ok ⟨[o], some (next, value), none⟩
          else (g.letters next false rest).map (Request.after o)

def expand (g : Grammar) (w : Written) : Except Refusal Request :=
  if w.spec.takesValue then .ok ⟨[], some (w.spec, w.explicit), none⟩
  else match w.explicit with
    | none => .ok ⟨[w.spec], none, none⟩
    | some v =>
      if w.name.startsWith "--" || v.isEmpty then .error (.ignored w.spec.title v)
      else g.letters w.spec w.afterEquals v.toList

def addPositional (g : Grammar) (p : Parsed) (spec : Positional) (first : String)
    (rest : List String) : Except Halt Parsed := do
  g.refuse (checkChoice spec.name spec.choices first)
  return { p with positional := some (first :: rest) }

def addExtra (p : Parsed) (s : String) : Parsed := { p with extras := p.extras ++ [s] }

/-- Reads classified arguments, each beside the way it was written. -/
def scan (g : Grammar) (p : Parsed) : List (Argument × String) → Except Halt Parsed
  | [] => .ok p
  | (.unknownOption s, _) :: rest => g.scan (addExtra p s) rest
  | (.option w, _) :: rest => do
    let request ← g.refuse (g.expand w)
    let p ← g.addFlags p request.flags
    let p := request.unknown.elim p (addExtra p)
    match request.last, rest with
    | none, rest => g.scan p rest
    | some (o, some v), rest => g.scan (← g.add p o v) rest
    | some (o, none), (.value v, _) :: rest => g.scan (← g.add p o v) rest
    | some (o, none), _ => g.refuse (.error (.noValue o.title))
  | (a, raw) :: rest =>
    match if p.positional.isSome then none else g.positional with
    | none => g.scan (addExtra p raw) rest
    | some spec =>
      if spec.takesRest then
        if a = .separator && rest.isEmpty then .ok (addExtra p raw)
        else g.addPositional p spec raw (rest.map Prod.snd)
      else match a, rest with
        | .separator, (.value v, _) :: rest => do g.scan (← g.addPositional p spec v []) rest
        | .separator, rest => g.scan (addExtra p raw) rest
        | _, (.separator, _) :: rest => do g.scan (← g.addPositional p spec raw []) rest
        | _, rest => do g.scan (← g.addPositional p spec raw []) rest
  termination_by arguments => arguments.length

def checkRequired (g : Grammar) (p : Parsed) : Except Refusal Parsed :=
  match g.positional with
  | some spec =>
    if spec.required && p.positional.isNone then .error (.required spec.name) else .ok p
  | none => .ok p

def parse (g : Grammar) (arguments : List String) : Except Halt Parsed := do
  let classified ← g.refuse (g.classifyAll arguments)
  let p ← g.scan ⟨[], none, []⟩ (classified.zip arguments)
  g.refuse (g.checkRequired p)

end Grammar

end SubstitutionAutomata.Command
