import SolDeployer.Binary64
import SolDeployer.Text.Integer

/-!
# Days and moments

A day is a number of days since the first of January 1970, and a moment a
number of microseconds since the start of that day in universal time. The
calendar has leap years by the Gregorian rule in all years, and only the
years from 1 to 9999 have days.
-/

namespace SolDeployer.Cbor

-- the plain ones, whatever other instances are around
attribute [local instance(high)] instPowNat Zero.ofOfNat0

/-! ## The calendar -/

namespace Calendar

/-- Has a year a day more? -/
def isLeapYear (year : Nat) : Bool := year % 4 == 0 && (year % 100 != 0 || year % 400 == 0)

def daysInMonth (year month : Nat) : Nat :=
  if month = 2 then if isLeapYear year then 29 else 28
  else if month = 4 ∨ month = 6 ∨ month = 9 ∨ month = 11 then 30
  else 31

/-- How many days are before a year, from the year 1 on. -/
def daysBeforeYear (year : Nat) : Nat :=
  let past := year - 1
  365 * past + past / 4 - past / 100 + past / 400

/-- How many days of a year are before a month. -/
def daysBeforeMonth (year month : Nat) : Nat :=
  ((List.range (month - 1)).map fun past => daysInMonth year (past + 1)).sum

/-- How many days are before the first of January 1970. -/
def daysBeforeStart : Nat := daysBeforeYear 1970

def lastYear : Nat := 9999

/-- Is a number one of those from one to a last one? -/
def isOneTo (last n : Nat) : Bool := 1 ≤ n && n ≤ last

/-- The day with a date, if there is one. -/
def day? (year month day : Nat) : Option Int :=
  if isOneTo lastYear year && isOneTo 12 month && isOneTo (daysInMonth year month) day then
    let past := daysBeforeYear year + daysBeforeMonth year month + (day - 1)
    some (past - daysBeforeStart : Int)
  else none

/-- Is a day in one of the years that have days? -/
def hasDay (day : Int) : Bool :=
  let past := day + daysBeforeStart
  0 ≤ past && past < daysBeforeYear (lastYear + 1)

/-- The weekday of the first of January, with Monday as zero. -/
def firstWeekday (year : Nat) : Nat := daysBeforeYear year % 7

/-- The day with a week and a weekday of a year, both from one on, if there
is one. The first week is the one with the first Thursday. -/
def weekDay? (year week weekday : Nat) : Option Int :=
  let start := firstWeekday year
  let weeks := if start = 3 ∨ (start = 2 ∧ isLeapYear year) then 53 else 52
  if isOneTo lastYear year && isOneTo weeks week && isOneTo 7 weekday then
    let monday : Int := daysBeforeYear year - start + (if 3 < start then 7 else 0)
    let day := monday + (7 * (week - 1) + (weekday - 1) : Nat) - daysBeforeStart
    if hasDay day then some day else none
  else none

end Calendar

/-! ## Text -/

namespace Moment

/-- The number in the first digits of a text, so many, and the text after
them. -/
def digits? (count : Nat) (text : List Char) : Option (Nat × List Char) :=
  let taken := text.take count
  if taken.length = count then
    (taken.mapM Text.digitValue?).map fun digits => (Text.ofDigits 10 digits, text.drop count)
  else none

def after? (mark : Char) : List Char → Option (List Char)
  | c :: rest => if c = mark then some rest else none
  | [] => none

/-- How many microseconds a second has. -/
def perSecond : Nat := 1000000

/-- The microseconds in the places after a point, which may be missing, and
the text after them. Places beyond the sixth do not count. -/
def fraction? : List Char → Option (Nat × List Char)
  | '.' :: rest =>
    let places := rest.takeWhile Text.isDigit
    if places.isEmpty then none
    else
      let counted := (places.filterMap Text.digitValue?).take 6
      some (Text.ofDigits 10 counted * 10 ^ (6 - counted.length), rest.drop places.length)
  | rest => some (0, rest)

/-- The minutes that a local time is before universal time, and the text
after them. It is less than a day. -/
def offset? : List Char → Option (Int × List Char)
  | 'Z' :: rest => some (0, rest)
  | sign :: rest => do
    if sign ≠ '+' ∧ sign ≠ '-' then none
    let (hours, rest) ← digits? 2 rest
    let (minutes, rest) ← digits? 2 (← after? ':' rest)
    let size := 60 * hours + minutes
    if 24 * 60 ≤ size then none
    else return (if sign = '-' then -(size : Int) else size, rest)
  | [] => none

/-- The microseconds of a time of day, and the text after it. -/
def timeOfDay? (text : List Char) : Option (Nat × List Char) := do
  let (hour, rest) ← digits? 2 text
  let (minute, rest) ← digits? 2 (← after? ':' rest)
  let (second, rest) ← digits? 2 (← after? ':' rest)
  let (part, rest) ← fraction? rest
  if 23 < hour ∨ 59 < minute ∨ 59 < second then none
  else return (((60 * hour + minute) * 60 + second) * perSecond + part, rest)

/-- The moment that a date, a time and an offset spell. The end of a line
may follow. -/
def ofText? (text : List Char) : Option Int := do
  let (year, rest) ← digits? 4 text
  let (month, rest) ← digits? 2 (← after? '-' rest)
  let (day, rest) ← digits? 2 (← after? '-' rest)
  let (time, rest) ← timeOfDay? (← after? 'T' rest)
  let (offset, rest) ← offset? rest
  if rest ≠ [] ∧ rest ≠ ['\n'] then none
  let days ← Calendar.day? year month day
  return (days * 24 * 60 - offset) * 60 * perSecond + time

/-- Is a moment in one of the years that have days? -/
def isValid (moment : Int) : Bool := Calendar.hasDay (moment.fdiv (24 * 60 * 60 * perSecond))

/-- The moment so many seconds after the start. -/
def ofSeconds? (seconds : Int) : Option Int :=
  let moment := seconds * perSecond
  if isValid moment then some moment else none

/-- The whole number nearest to a number, its sign left out. -/
def nearestSize : Binary64 → Nat
  | .finite _ mantissa exponent =>
    if 0 ≤ exponent then mantissa * 2 ^ exponent.toNat
    else Binary64.roundedQuotient mantissa (2 ^ (-exponent).toNat)
  | _ => 0

/-- The moment so many seconds after the start. The part of a second is
multiplied as a floating point number, and then rounded to microseconds. -/
def ofBinary64? : Binary64 → Option Int
  | .finite negative mantissa exponent =>
    let scale := 2 ^ (-exponent).toNat
    let whole := if 0 ≤ exponent then mantissa * 2 ^ exponent.toNat else mantissa / scale
    let part := Binary64.ofQuotient false (mantissa % scale * perSecond) scale
    let size := whole * perSecond + nearestSize part
    let moment : Int := if negative then -(size : Int) else size
    if isValid moment then some moment else none
  | _ => none

/-- The number in the first digits of a plain text, so many, and the text
after them. -/
def plainDigits? (count : Nat) (text : List Char) : Option (Nat × List Char) :=
  if (text.take count).all Char.isDigit then digits? count text else none

def afterDash? (dashes : Bool) (text : List Char) : Option (List Char) :=
  if dashes then after? '-' text else some text

/-- The day that a date alone spells: year, month and day, or year, week and
weekday, with dashes or without. Its bytes are as many as one of these forms
has, and what stands after the last number does not count. -/
def dayOfText? (text : List Char) : Option Int := do
  if !([7, 8, 10].contains (String.ofList text).utf8ByteSize) then none
  let (year, rest) ← plainDigits? 4 text
  let dashes := rest.head? == some '-'
  let rest := if dashes then rest.drop 1 else rest
  match after? 'W' rest with
  | some rest =>
    let (week, rest) ← plainDigits? 2 rest
    if rest.isEmpty then Calendar.weekDay? year week 1
    else
      let (weekday, _) ← plainDigits? 1 (← afterDash? dashes rest)
      Calendar.weekDay? year week weekday
  | none =>
    let (month, rest) ← plainDigits? 2 rest
    let (day, _) ← plainDigits? 2 (← afterDash? dashes rest)
    Calendar.day? year month day

end Moment

end SolDeployer.Cbor
