import Coffer.Number.RealText
import Coffer.Text.Blank
import Coffer.Text.Ranges

namespace Coffer

/-! # Instants

Points in time as they are written in snapshots: a date, a time of day and an offset from
UTC. Blanks between the parts are passed over when one is read; one is written in UTC.
-/

/-- A point in time. Within a leap second, the nanoseconds go past a whole second. -/
structure Instant where
  /-- The seconds since the start of the year 1970. -/
  seconds : Int
  nanoseconds : Nat
  deriving DecidableEq, Repr

namespace Instant

structure Date where
  year : Int
  month : Nat
  day : Nat
  deriving DecidableEq, Repr

def isLeapYear (year : Int) : Bool :=
  year % 4 == 0 && (year % 100 != 0 || year % 400 == 0)

def daysInMonth (year : Int) (month : Nat) : Nat :=
  if month = 2 then if isLeapYear year then 29 else 28
  else if month = 4 ∨ month = 6 ∨ month = 9 ∨ month = 11 then 30
  else 31

def daysBeforeMonth (year : Int) (month : Nat) : Nat :=
  (List.range (month - 1)).foldl (fun days before => days + daysInMonth year (before + 1)) 0

/-- The days from the start of 1970 to the start of a year. -/
def daysBeforeYear (year : Int) : Int :=
  let before := year - 1
  365 * (year - 1970) + (before / 4 - before / 100 + before / 400) - 477

/-- The days from the start of 1970 to a date. -/
def Date.days (date : Date) : Int :=
  daysBeforeYear date.year + daysBeforeMonth date.year date.month + (date.day - 1 : Nat)

def isYear (year : Int) : Bool :=
  decide (-262143 ≤ year) && decide (year ≤ 262142)

def Date.isValid (date : Date) : Bool :=
  isYear date.year && decide (1 ≤ date.month) && decide (date.month ≤ 12) &&
    decide (1 ≤ date.day) && decide (date.day ≤ daysInMonth date.year date.month)

/-- The year that a day falls into: an estimate that is never late, moved on. -/
def yearOfDay (day : Int) : Int :=
  let estimate := (400 * (day - 366)) / 146097 + 1970
  let later := (List.range 4).filter fun (more : Nat) =>
    decide (daysBeforeYear (estimate + (more : Int)) ≤ day)
  estimate + (later.length - 1 : Nat)

/-- The month that a day of a year falls into, counted from zero. -/
def monthOfDay (year : Int) (day : Nat) : Nat :=
  ((List.range 12).filter fun before =>
    decide (daysBeforeMonth year (before + 1) ≤ day)).length

/-- The date of a day counted from the start of 1970. -/
def dateOfDay (day : Int) : Date :=
  let year := yearOfDay day
  let ordinal := (day - daysBeforeYear year).toNat
  let month := monthOfDay year ordinal
  { year, month, day := ordinal - daysBeforeMonth year month + 1 }

def skipBlanks (text : List Char) : List Char :=
  text.dropWhile Text.isBlank

/-- A number of at most the given count of digits, after blanks. -/
def number? (most : Nat) (text : List Char) : Option (Nat × List Char) :=
  let text := skipBlanks text
  let digits := (text.take most).takeWhile Text.isDigit
  if digits.isEmpty then none
  else
    some (digits.foldl (fun value digit => 10 * value + (digit.toNat - 48)) 0,
      text.drop digits.length)

/-- A year: four digits, or any number of them after a sign. -/
def year? (text : List Char) : Option (Int × List Char) :=
  match skipBlanks text with
  | '-' :: rest =>
    if (rest.head?).any Text.isDigit then
      (number? rest.length rest).map fun found => (-(found.1 : Int), found.2)
    else none
  | '+' :: rest =>
    if (rest.head?).any Text.isDigit then
      (number? rest.length rest).map fun found => ((found.1 : Int), found.2)
    else none
  | rest => (number? 4 rest).map fun found => ((found.1 : Int), found.2)

/-- The rest after a mark that blanks may stand before. -/
def after? (mark : Char) (text : List Char) : Option (List Char) :=
  match skipBlanks text with
  | c :: rest => if c = mark then some rest else none
  | [] => none

/-- The nanoseconds of an optional fraction of a second. Digits past the ninth have no
effect. -/
def fraction? : List Char → Option (Nat × List Char)
  | '.' :: rest =>
    let digits := rest.takeWhile Text.isDigit
    if digits.isEmpty then none
    else
      let kept := (digits ++ List.replicate 9 '0').take 9
      some (kept.foldl (fun value digit => 10 * value + (digit.toNat - 48)) 0,
        rest.dropWhile Text.isDigit)
  | rest => some (0, rest)

def twoDigits? : List Char → Option (Nat × List Char)
  | a :: b :: rest =>
    if Text.isDigit a && Text.isDigit b then
      some (10 * (a.toNat - 48) + (b.toNat - 48), rest)
    else none
  | _ => none

/-- The seconds of an offset after its sign. -/
def offsetSize? (text : List Char) : Option (Nat × List Char) := do
  let (hours, rest) ← twoDigits? text
  let (minutes, rest) ← twoDigits? (rest.dropWhile fun c => c == ':' || Text.isBlank c)
  if 60 ≤ minutes ∨ 24 ≤ hours then none
  some (3600 * hours + 60 * minutes, rest)

/-- The seconds of an offset from UTC. -/
def offset? (text : List Char) : Option (Int × List Char) :=
  match text with
  | '+' :: rest => (offsetSize? rest).map fun found => ((found.1 : Int), found.2)
  | '-' :: rest => (offsetSize? rest).map fun found => (-(found.1 : Int), found.2)
  | '\u2212' :: rest => (offsetSize? rest).map fun found => (-(found.1 : Int), found.2)
  | c :: rest =>
    if c.toLower = 'z' then some (0, rest)
    else if (text.take 3).map Char.toLower = ['u', 't', 'c'] then some (0, text.drop 3)
    else none
  | [] => none

def date? (text : List Char) : Option (Date × List Char) := do
  let (year, rest) ← year? text
  let (month, rest) ← number? 2 (← after? '-' rest)
  let (day, rest) ← number? 2 (← after? '-' rest)
  some ({ year, month, day }, rest)

/-- A time of day: its seconds and nanoseconds. A sixtieth second is a leap second. -/
def time? (text : List Char) : Option (Nat × Nat × List Char) := do
  let (hour, rest) ← number? 2 text
  let (minute, rest) ← number? 2 (← after? ':' rest)
  let (second, rest) ← number? 2 (← after? ':' rest)
  let (nanoseconds, rest) ← fraction? rest
  if 24 ≤ hour ∨ 60 ≤ minute ∨ 61 ≤ second then none
  if second = 60 then some (3600 * hour + 60 * minute + 59, nanoseconds + Nat.pow 10 9, rest)
  else some (3600 * hour + 60 * minute + second, nanoseconds, rest)

def ofText? (text : String) : Option Instant := do
  let (date, rest) ← date? text.toList
  let separator ← rest.head?
  if separator ≠ 'T' ∧ separator ≠ 't' ∧ separator ≠ ' ' then none
  let (seconds, nanoseconds, rest) ← time? (rest.drop 1)
  let (offset, rest) ← offset? (skipBlanks rest)
  let instant : Instant := ⟨86400 * date.days + seconds - offset, nanoseconds⟩
  if date.isValid && (skipBlanks rest).isEmpty &&
      isYear (dateOfDay (instant.seconds / 86400)).year then some instant
  else none

/-- A number in at least the given count of digits. -/
def padded (width number : Nat) : String :=
  let digits := digitsOf number
  String.ofList (List.replicate (width - digits.length) '0' ++ digits)

/-- A year. One that is not of four digits has a sign. -/
def yearText (year : Int) : String :=
  if 0 ≤ year ∧ year ≤ 9999 then padded 4 year.toNat
  else (if year < 0 then "-" else "+") ++ padded 4 year.natAbs

/-- A fraction of a second, in three, six or nine digits as it needs. -/
def fractionText (nanoseconds : Nat) : String :=
  if nanoseconds = 0 then ""
  else if nanoseconds % Nat.pow 10 6 = 0 then "." ++ padded 3 (nanoseconds / Nat.pow 10 6)
  else if nanoseconds % Nat.pow 10 3 = 0 then "." ++ padded 6 (nanoseconds / Nat.pow 10 3)
  else "." ++ padded 9 nanoseconds

def toText (instant : Instant) : String :=
  let date := dateOfDay (instant.seconds / 86400)
  let time := (instant.seconds % 86400).toNat
  let leap := if Nat.pow 10 9 ≤ instant.nanoseconds then 1 else 0
  let day := "-".intercalate [yearText date.year, padded 2 date.month, padded 2 date.day]
  let hour := ":".intercalate
    [padded 2 (time / 3600), padded 2 (time / 60 % 60), padded 2 (time % 60 + leap)]
  day ++ "T" ++ hour ++ fractionText (instant.nanoseconds % Nat.pow 10 9) ++ "Z"

end Instant

end Coffer
