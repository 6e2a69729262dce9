/-! Points in time as text: date and time of day in the Gregorian calendar, at Greenwich. -/
namespace NatRelay.Timestamp

/-- The digits of a number, zeros in front up to the width. -/
def pad (width n : Nat) : String :=
  let ds := Nat.toDigits 10 n
  String.ofList (List.replicate (width - ds.length) '0' ++ ds)

/-- Year, month and day of a day counted from 1970-01-01. Years are counted from the first of
March, in eras of four centuries. -/
def date (day : Nat) : Nat × Nat × Nat :=
  let z := day + 719468
  let dayOfEra := z % 146097
  let yearOfEra := (dayOfEra - dayOfEra / 1460 + dayOfEra / 36524 - dayOfEra / 146096) / 365
  let dayOfYear := dayOfEra - (365 * yearOfEra + yearOfEra / 4 - yearOfEra / 100)
  let monthFromMarch := (5 * dayOfYear + 2) / 153
  let month := if monthFromMarch < 10 then monthFromMarch + 3 else monthFromMarch - 9
  let year := yearOfEra + z / 146097 * 400 + if month ≤ 2 then 1 else 0
  (year, month, dayOfYear - (153 * monthFromMarch + 2) / 5 + 1)

/-- The text of a second counted from the start of 1970. -/
def text (second : Nat) : String :=
  let (year, month, day) := date (second / 86400)
  let time := second % 86400
  s!"{pad 4 year}-{pad 2 month}-{pad 2 day}T" ++
    s!"{pad 2 (time / 3600)}:{pad 2 (time / 60 % 60)}:{pad 2 (time % 60)}Z"

example : text 1000000000 = "2001-09-09T01:46:40Z" := by decide +kernel

end NatRelay.Timestamp
