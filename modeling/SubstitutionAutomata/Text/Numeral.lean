import SubstitutionAutomata.Text.Blank
import SubstitutionAutomata.Text.Digit

/-! Numbers in arguments. Digits may be of any script, blanks may surround the number, and single
underscores may separate its digits. -/

namespace SubstitutionAutomata.Text

/-- Blanks around a number: all but the four ASCII separators. -/
def isMargin (c : Char) : Bool := isBlank c && !(0x1c ≤ c.toNat && c.toNat ≤ 0x1f)

/-- The longest run of digits with single underscores between them, and what follows it. -/
def digitRun : List Char → List Nat × List Char
  | [] => ([], [])
  | [c] => match digitValue? c with
    | some d => ([d], [])
    | none => ([], [c])
  | c :: c' :: rest => match digitValue? c with
    | none => ([], c :: c' :: rest)
    | some d =>
      if c' = '_' then
        match digitRun rest with
        | ([], _) => ([d], c' :: rest)
        | (ds, tail) => (d :: ds, tail)
      else
        let (ds, tail) := digitRun (c' :: rest)
        (d :: ds, tail)
  termination_by s => s.length

def ofDigits (ds : List Nat) : Nat := ds.foldl (fun value d => 10 * value + d) 0

/-- The sign of a number: whether it is negative, and the text after the sign. -/
def signed : List Char → Bool × List Char
  | '-' :: rest => (true, rest)
  | '+' :: rest => (false, rest)
  | s => (false, s)

/-- Integers with more digits than this are refused. -/
def digitLimit : Nat := 4300

def int? (s : String) : Option Int :=
  let (negative, body) := signed (trim isMargin s.toList)
  match digitRun body with
  | ([], _) => none
  | (ds, []) =>
    if digitLimit < ds.length then none
    else some (if negative then -(ofDigits ds : Int) else ofDigits ds)
  | _ => none

/-- A number of seconds. `decimal negative n e` is n times ten to the e. -/
inductive Seconds where
  | decimal (negative : Bool) (digits : Nat) (exponent : Int)
  | endless (negative : Bool)
  | undefined
  deriving DecidableEq, Repr

/-- A number so small that half the least positive double is not below it counts as zero. -/
def Seconds.isZero : Seconds → Bool
  | decimal _ digits exponent =>
    digits == 0 ||
      (exponent < 0 &&
        (1000 + Nat.log2 digits < exponent.natAbs ||
          digits * Nat.pow 2 1075 ≤ Nat.pow 10 exponent.natAbs))
  | _ => false

/-- The longest wait that the system offers, in milliseconds. -/
def longestWait : Nat := 4294967295

def Seconds.milliseconds : Seconds → Nat
  | .decimal true _ _ | .undefined | .endless true => 0
  | .endless false => longestWait
  | .decimal false digits exponent =>
    if digits = 0 then 0
    else if exponent + 3 < 0 then digits / Nat.pow 10 (min (exponent + 3).natAbs 400)
    else min longestWait (digits * Nat.pow 10 (min (exponent + 3).toNat 20))

/-- The power of ten after a mantissa; empty text stands for the power zero. -/
def exponent? : List Char → Option Int
  | [] => some 0
  | e :: rest =>
    if e = 'e' || e = 'E' then
      let (negative, body) := signed rest
      match digitRun body with
      | (d :: ds, []) =>
        some (if negative then -(ofDigits (d :: ds) : Int) else ofDigits (d :: ds))
      | _ => none
    else none

def seconds? (s : String) : Option Seconds :=
  let (negative, body) := signed (trim isMargin s.toList)
  let word := body.map Char.toLower
  if word = "inf".toList || word = "infinity".toList then some (.endless negative)
  else if word = "nan".toList then some .undefined
  else
    let (whole, rest) := digitRun body
    let (fraction, tail) := match rest with
      | '.' :: rest => digitRun rest
      | rest => ([], rest)
    if whole.isEmpty && fraction.isEmpty then none
    else (exponent? tail).map fun e =>
      .decimal negative (ofDigits (whole ++ fraction)) (e - fraction.length)

end SubstitutionAutomata.Text
