import SubstitutionAutomata.Text.Quoted

/-! Text from bytes in UTF-8. The first ill-formed unit is reported with the bytes it spans. -/

namespace SubstitutionAutomata.Text

inductive Utf8Cause where
  | startByte
  | continuationByte
  | endOfData
  deriving DecidableEq, Repr

/-- The bytes from `start` up to `stop` are no character. -/
structure Utf8Fault where
  cause : Utf8Cause
  start : Nat
  stop : Nat
  firstByte : UInt8
  deriving DecidableEq, Repr

def Utf8Cause.message : Utf8Cause → String
  | startByte => "invalid start byte"
  | continuationByte => "invalid continuation byte"
  | endOfData => "unexpected end of data"

def Utf8Fault.message (fault : Utf8Fault) : String :=
  if fault.stop = fault.start + 1 then
    let byte := String.ofList (hexDigits 2 fault.firstByte.toNat)
    s!"'utf-8' codec can't decode byte 0x{byte} in position {fault.start}: {fault.cause.message}"
  else
    let last := fault.stop - 1
    s!"'utf-8' codec can't decode bytes in position {fault.start}-{last}: {fault.cause.message}"

/-- How many continuation bytes follow a start byte, its own payload, and the range of the first of
them, which excludes overlong forms, surrogates and code points above U+10FFFF. -/
def startByte? (b : UInt8) : Option (Nat × Nat × UInt8 × UInt8) :=
  if b < 0x80 then some (0, b.toNat, 0x80, 0xbf)
  else if b < 0xc2 then none
  else if b < 0xe0 then some (1, b.toNat - 0xc0, 0x80, 0xbf)
  else if b < 0xf0 then
    some (2, b.toNat - 0xe0, if b = 0xe0 then 0xa0 else 0x80, if b = 0xed then 0x9f else 0xbf)
  else if b < 0xf5 then
    some (3, b.toNat - 0xf0, if b = 0xf0 then 0x90 else 0x80, if b = 0xf4 then 0x8f else 0xbf)
  else none

/-- Reads `missing` continuation bytes; on a fault, how many were read before it. -/
def continuation (missing seen value : Nat) (low high : UInt8) :
    List UInt8 → Except (Utf8Cause × Nat) (Nat × List UInt8)
  | rest =>
    match missing, rest with
    | 0, rest => .ok (value, rest)
    | _ + 1, [] => .error (.endOfData, seen)
    | missing + 1, b :: rest =>
      if low ≤ b && b ≤ high then
        continuation missing (seen + 1) (value * 64 + (b.toNat - 0x80)) 0x80 0xbf rest
      else .error (.continuationByte, seen)

/-- Decodes from byte `position` on, with at most as many characters as `fuel`. -/
def decodeFrom (fuel position : Nat) (bytes : List UInt8) : Except Utf8Fault (List Char) :=
  match fuel, bytes with
  | 0, _ => .ok []
  | _, [] => .ok []
  | fuel + 1, b :: rest =>
    match startByte? b with
    | none => .error ⟨.startByte, position, position + 1, b⟩
    | some (count, value, low, high) =>
      match continuation count 0 value low high rest with
      | .error (cause, seen) => .error ⟨cause, position, position + 1 + seen, b⟩
      | .ok (code, rest) => (decodeFrom fuel (position + 1 + count) rest).map (Char.ofNat code :: ·)

/-- Every character takes at least one byte, so the number of bytes bounds the decoding. -/
def decodeUtf8 (bytes : List UInt8) : Except Utf8Fault String :=
  (decodeFrom bytes.length 0 bytes).map String.ofList

end SubstitutionAutomata.Text
