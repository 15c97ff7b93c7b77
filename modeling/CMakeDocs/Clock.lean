/-!
# Times of messages

A time is counted in milliseconds since the start of 1970 and written as a date, a time of day and
the milliseconds.
-/
namespace CMakeDocs.Clock

def isLeap (year : Nat) : Bool := year % 4 = 0 && (year % 100 ≠ 0 || year % 400 = 0)

def yearLength (year : Nat) : Nat := if isLeap year then 366 else 365

def monthLengths (year : Nat) : List Nat :=
  [31, if isLeap year then 29 else 28, 31, 30, 31, 30, 31, 31, 30, 31, 30, 31]

/-- The year of a day and the number of the day in it, looking at a number of years from the
given one on. -/
def yearOf : Nat → Nat → Nat → Nat × Nat
  | 0, year, day => (year, day)
  | years + 1, year, day =>
    if day < yearLength year then (year, day) else yearOf years (year + 1) (day - yearLength year)

/-- The month of a day of a year and the number of the day in it, both from one on. -/
def monthOf : Nat → Nat → List Nat → Nat × Nat
  | month, day, [] => (month, day + 1)
  | month, day, length :: rest =>
    if day < length then (month, day + 1) else monthOf (month + 1) (day - length) rest

/-- A number with zeros in front. -/
def padded (width n : Nat) : String :=
  let digits := toString n
  String.ofList (List.replicate (width - digits.length) '0') ++ digits

def render (milliseconds : Nat) : String :=
  let seconds := milliseconds / 1000
  let days := seconds / 86400
  let (year, dayOfYear) := yearOf (days / 365 + 1) 1970 days
  let (month, day) := monthOf 1 dayOfYear (monthLengths year)
  let date := "-".intercalate [padded 4 year, padded 2 month, padded 2 day]
  let time := ":".intercalate
    [padded 2 (seconds / 3600 % 24), padded 2 (seconds / 60 % 60), padded 2 (seconds % 60)]
  date ++ " " ++ time ++ "," ++ padded 3 (milliseconds % 1000)

example : render 1700000000123 = "2023-11-14 22:13:20,123" := by decide

end CMakeDocs.Clock
