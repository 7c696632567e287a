/-! Points in time as text. -/

namespace SubstitutionAutomata

/-- Year, month and day of a number of days after 1 January 1970. Years are counted from March, so
that a leap day is the last of its year. -/
def calendarDate (days : Nat) : Nat × Nat × Nat :=
  let shifted := days + 719468
  let era := shifted / 146097
  let dayOfEra := shifted % 146097
  let yearOfEra := (dayOfEra - dayOfEra / 1460 + dayOfEra / 36524 - dayOfEra / 146096) / 365
  let dayOfYear := dayOfEra - (365 * yearOfEra + yearOfEra / 4 - yearOfEra / 100)
  let marchMonth := (5 * dayOfYear + 2) / 153
  let day := dayOfYear - (153 * marchMonth + 2) / 5 + 1
  let month := if marchMonth < 10 then marchMonth + 3 else marchMonth - 9
  let year := yearOfEra + era * 400 + if month ≤ 2 then 1 else 0
  (year, month, day)

def twoDigits (n : Nat) : String := if n < 10 then s!"0{n}" else toString n

/-- A number of seconds after the start of 1970 as a date, a T and a time of day. -/
def timeText (seconds : Nat) : String :=
  let (year, month, day) := calendarDate (seconds / 86400)
  let date := s!"{year}-{twoDigits month}-{twoDigits day}"
  let hour := twoDigits (seconds / 3600 % 24)
  let minute := twoDigits (seconds / 60 % 60)
  let second := twoDigits (seconds % 60)
  s!"{date}T{hour}:{minute}:{second}"

end SubstitutionAutomata
