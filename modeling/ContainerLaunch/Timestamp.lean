import ContainerLaunch.Text.Pieces
import ContainerLaunch.Text.Numeral
/-!
# Points in time

Reading and writing a point in time as a date, a time of day and an offset from
UTC.  White space between the parts is allowed when it is read; it is written in
UTC with no, three, six or nine decimals.  The second 60 of a minute is kept as
a second 59 of more than a thousand million nanoseconds.
-/

namespace ContainerLaunch

/-- A point in time. -/
structure Timestamp where
  seconds : Int
  /-- Nanoseconds since then; more than a second's worth in a leap second. -/
  nanoseconds : Nat
  deriving DecidableEq, Repr, Inhabited

namespace Timestamp

/-- A day of the calendar. -/
structure Date where
  year : Int
  month : Nat
  day : Nat
  deriving DecidableEq, Repr

/-- Whether a year has a day more in February. -/
def isLeap (year : Int) : Bool :=
  year % 4 == 0 && (year % 100 != 0 || year % 400 == 0)

def daysInMonth (year : Int) (month : Nat) : Nat :=
  if month = 2 then (if isLeap year then 29 else 28)
  else if month = 4 ∨ month = 6 ∨ month = 9 ∨ month = 11 then 30
  else 31

namespace Date

/-- Whether there is such a day in the years that are supported. -/
def isValid (d : Date) : Bool :=
  -262143 ≤ d.year && d.year ≤ 262142 && 1 ≤ d.month && d.month ≤ 12 && 1 ≤ d.day &&
    d.day ≤ daysInMonth d.year d.month

/-- The days from the start of 1970; a year is counted from March on. -/
def toDays (d : Date) : Int :=
  let year := if d.month ≤ 2 then d.year - 1 else d.year
  let era := year / 400
  let yearOfEra := year % 400
  let monthFromMarch : Int := if d.month ≤ 2 then d.month + 9 else d.month - 3
  let dayOfYear := (153 * monthFromMarch + 2) / 5 + d.day - 1
  era * 146097 + yearOfEra * 365 + yearOfEra / 4 - yearOfEra / 100 + dayOfYear - 719468

/-- The day at a distance from the start of 1970. -/
def ofDays (days : Int) : Date :=
  let shifted := days + 719468
  let era := shifted / 146097
  let dayOfEra := (shifted % 146097).toNat
  let yearOfEra := (dayOfEra - dayOfEra / 1460 + dayOfEra / 36524 - dayOfEra / 146096) / 365
  let dayOfYear := dayOfEra - (365 * yearOfEra + yearOfEra / 4 - yearOfEra / 100)
  let monthFromMarch := (5 * dayOfYear + 2) / 153
  let month := if monthFromMarch < 10 then monthFromMarch + 3 else monthFromMarch - 9
  { year := yearOfEra + era * 400 + (if month ≤ 2 then 1 else 0)
    month := month
    day := dayOfYear - (153 * monthFromMarch + 2) / 5 + 1 }

end Date

/-! ## Reading -/

def skipBlank (cs : List Char) : List Char :=
  cs.dropWhile Text.isBlank

/-- A number of at most `most` digits, after white space. -/
def number (most : Nat) (cs : List Char) : Option (Nat × List Char) := do
  let cs := skipBlank cs
  let digits := (cs.take most).takeWhile Char.isDigit
  let value ← Text.natOfDigits digits
  some (value, cs.drop digits.length)

/-- A number of two digits within bounds. -/
def bounded (low high : Nat) (cs : List Char) : Option (Nat × List Char) := do
  let (value, rest) ← number 2 cs
  if low ≤ value ∧ value ≤ high then some (value, rest) else none

/-- A year: four digits, or any number of them after a sign. -/
def yearOf (cs : List Char) : Option (Int × List Char) :=
  match skipBlank cs with
  | '-' :: c :: rest =>
    if c.isDigit then (number rest.length.succ (c :: rest)).map fun (n, cs) => (-(n : Int), cs)
    else none
  | '+' :: c :: rest =>
    if c.isDigit then (number rest.length.succ (c :: rest)).map fun (n, cs) => ((n : Int), cs)
    else none
  | cs => (number 4 cs).map fun (n, cs) => ((n : Int), cs)

def separator (sep : Char) (cs : List Char) : Option (List Char) :=
  match skipBlank cs with
  | c :: rest => if c = sep then some rest else none
  | [] => none

/-- The decimals of a second in nanoseconds; those after the ninth do not count. -/
def decimals (cs : List Char) : Option (Nat × List Char) :=
  match cs with
  | '.' :: rest => do
    let digits := rest.takeWhile Char.isDigit
    let counted := digits.take 9
    let value ← Text.natOfDigits counted
    some (value * Nat.pow 10 (9 - counted.length), rest.drop digits.length)
  | cs => some (0, cs)

def offsetMinutes (cs : List Char) : Option (Nat × List Char) :=
  match cs with
  | tens :: ones :: rest => do
    let tens ← Text.digitValue tens
    let ones ← Text.digitValue ones
    if tens ≤ 5 then some (tens * 10 + ones, rest) else none
  | _ => none

/-- The seconds of an offset after its sign. -/
def offsetSize (cs : List Char) : Option (Nat × List Char) :=
  match cs with
  | tens :: ones :: rest => do
    let tens ← Text.digitValue tens
    let ones ← Text.digitValue ones
    let rest := rest.dropWhile fun c => c == ':' || Text.isBlank c
    let (minutes, rest) ← offsetMinutes rest
    some ((tens * 10 + ones) * 3600 + minutes * 60, rest)
  | _ => none

def offset (cs : List Char) : Option (Int × List Char) :=
  match skipBlank cs with
  | 'Z' :: rest | 'z' :: rest => some (0, rest)
  | '+' :: rest => (offsetSize rest).map fun (n, cs) => ((n : Int), cs)
  | '-' :: rest | '\u2212' :: rest => (offsetSize rest).map fun (n, cs) => (-(n : Int), cs)
  | u :: t :: c :: rest =>
    if String.ofList [u.toUpper, t.toUpper, c.toUpper] = "UTC" then some (0, rest) else none
  | _ => none

def date (cs : List Char) : Option (Date × List Char) := do
  let (year, cs) ← yearOf cs
  let cs ← separator '-' cs
  let (month, cs) ← bounded 1 12 cs
  let cs ← separator '-' cs
  let (day, cs) ← bounded 1 31 cs
  let date : Date := ⟨year, month, day⟩
  if date.isValid then some (date, cs) else none

/-- The mark between the date and the time of day. -/
def mark (cs : List Char) : Option (List Char) :=
  match cs with
  | 'T' :: rest | 't' :: rest | ' ' :: rest => some rest
  | _ => none

/-- A time of day in seconds and nanoseconds. -/
def timeOfDay (cs : List Char) : Option ((Nat × Nat) × List Char) := do
  let (hour, cs) ← bounded 0 23 cs
  let cs ← separator ':' cs
  let (minute, cs) ← bounded 0 59 cs
  let cs ← separator ':' cs
  let (second, cs) ← bounded 0 60 cs
  let (nanoseconds, cs) ← decimals cs
  let base := hour * 3600 + minute * 60
  if second = 60 then some ((base + 59, 1000000000 + nanoseconds), cs)
  else some ((base + second, nanoseconds), cs)

/-- The point in time that a text describes. -/
def parse (text : String) : Option Timestamp := do
  let (date, cs) ← date text.toList
  let cs ← mark cs
  let ((second, nanoseconds), cs) ← timeOfDay cs
  let (offset, cs) ← offset cs
  let seconds := date.toDays * 86400 + second - offset
  if (skipBlank cs).isEmpty ∧ offset.natAbs < 86400 ∧
      (Date.ofDays (seconds / 86400)).isValid then
    some ⟨seconds, nanoseconds⟩
  else none

/-! ## Writing -/

/-- A number with at least `width` digits. -/
def padded (width n : Nat) : String :=
  let digits := Nat.toDigits 10 n
  String.ofList (List.replicate (width - digits.length) '0' ++ digits)

/-- A year: four digits, or a sign and more of them. -/
def yearText (year : Int) : String :=
  if 0 ≤ year ∧ year ≤ 9999 then padded 4 year.toNat
  else (if year < 0 then "-" else "+") ++ padded 4 year.natAbs

/-- The decimals of a second: none, three, six or nine. -/
def decimalsText (nanoseconds : Nat) : String :=
  if nanoseconds = 0 then ""
  else if nanoseconds % 1000000 = 0 then "." ++ padded 3 (nanoseconds / 1000000)
  else if nanoseconds % 1000 = 0 then "." ++ padded 6 (nanoseconds / 1000)
  else "." ++ padded 9 nanoseconds

def text (t : Timestamp) : String :=
  let date := Date.ofDays (t.seconds / 86400)
  let second := (t.seconds % 86400).toNat
  let (extra, nanoseconds) :=
    if 1000000000 ≤ t.nanoseconds then (1, t.nanoseconds - 1000000000) else (0, t.nanoseconds)
  let day := yearText date.year ++ "-" ++ padded 2 date.month ++ "-" ++ padded 2 date.day
  let time := padded 2 (second / 3600) ++ ":" ++ padded 2 (second / 60 % 60) ++ ":" ++
    padded 2 (second % 60 + extra)
  day ++ "T" ++ time ++ decimalsText nanoseconds ++ "Z"

end Timestamp
end ContainerLaunch
