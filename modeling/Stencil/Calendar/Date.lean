/-!
Dates of the Gregorian calendar, extended in both directions. Days are numbered from the first of
January of the year 1, which has the number 1 and is a Monday; weeks and weekdays follow from the
numbers.
-/

namespace Stencil.Calendar

def isLeap (year : Int) : Bool := year % 4 == 0 && (year % 100 != 0 || year % 400 == 0)

def daysInYear (year : Int) : Nat := if isLeap year then 366 else 365

def daysInMonth (year : Int) (month : Nat) : Nat :=
  if month = 2 then if isLeap year then 29 else 28
  else if month = 4 ∨ month = 6 ∨ month = 9 ∨ month = 11 then 30
  else 31

def daysBefore (year : Int) : Nat → Nat
  | 0 => 0
  | 1 => 0
  | m + 1 => daysBefore year m + daysInMonth year m

/-- A date: a year and the number of the day in it, from 1 on. -/
structure Date where
  year : Int
  ordinal : Nat
  deriving DecidableEq, Repr

def minYear : Int := -262143

def maxYear : Int := 262142

namespace Date

def ofOrdinal? (year : Int) (ordinal : Nat) : Option Date :=
  if minYear ≤ year ∧ year ≤ maxYear ∧ 1 ≤ ordinal ∧ ordinal ≤ daysInYear year then some ⟨year, ordinal⟩
  else none

def ofMonthDay? (year : Int) (month day : Nat) : Option Date :=
  if 1 ≤ month ∧ month ≤ 12 ∧ 1 ≤ day ∧ day ≤ daysInMonth year month then
    ofOrdinal? year (daysBefore year month + day)
  else none

/-- The month, at most `n`, that a day of a year lies in. -/
def monthUpTo (d : Date) : Nat → Nat
  | 0 => 1
  | n + 1 => if daysBefore d.year (n + 1) < d.ordinal then n + 1 else monthUpTo d n

def month (d : Date) : Nat := d.monthUpTo 12

def day (d : Date) : Nat := d.ordinal - daysBefore d.year d.month

def quarter (d : Date) : Nat := (d.month + 2) / 3

/-- The number of the last day before a year. -/
def numberBefore (year : Int) : Int :=
  let y := year - 1
  365 * y + y / 4 - y / 100 + y / 400

def number (d : Date) : Int := numberBefore d.year + d.ordinal

/-- The year and the day in it of a number. Four centuries have a whole number of days, the last of
them a day more than the others; so it is with centuries, of which the last of four years has a day
less when it ends a century. -/
def ofNumber (n : Int) : Date :=
  let z := n - 1
  let cycle := z / 146097
  let inCycle := (z % 146097).toNat
  let century := min (inCycle / 36524) 3
  let inCentury := inCycle - century * 36524
  let four := inCentury / 1461
  let inFour := inCentury % 1461
  let one := min (inFour / 365) 3
  ⟨400 * cycle + ((100 * century + 4 * four + one + 1 : Nat) : Int), inFour - 365 * one + 1⟩

/-- The date of a number, when dates reach it. -/
def ofNumber? (n : Int) : Option Date :=
  let d := ofNumber n
  if minYear ≤ d.year ∧ d.year ≤ maxYear then some d else none

/-- The weekday, from 0 for Monday to 6 for Sunday. -/
def weekday (d : Date) : Nat := ((d.number - 1) % 7).toNat

/-- How many days a weekday is behind the last day with another one. -/
def daysSince (weekday first : Nat) : Nat := (weekday + 7 - first) % 7

/-- The week of the year when weeks begin with a weekday; days before its first occurrence are in
week 0. -/
def weekFrom (d : Date) (first : Nat) : Nat := (d.ordinal + 6 - daysSince d.weekday first) / 7

/-- The number of weeks of a year whose weeks belong to the year that has their Thursday. -/
def isoWeeks (year : Int) : Nat :=
  let first := (ofNumber (numberBefore year + 1)).weekday
  if first = 3 ∨ (first = 2 ∧ isLeap year) then 53 else 52

/-- The year and the week that a date belongs to by its week's Thursday. -/
def isoWeek (d : Date) : Int × Nat :=
  let w := (d.ordinal + 9 - d.weekday) / 7
  if w < 1 then (d.year - 1, isoWeeks (d.year - 1))
  else if isoWeeks d.year < w then (d.year + 1, 1)
  else (d.year, w)

/-- The date of a weekday of a week, by the year of the week's Thursday. -/
def ofIsoWeek? (year : Int) (week weekday : Nat) : Option Date :=
  if 1 ≤ week ∧ week ≤ isoWeeks year then
    let fourth := ofNumber (numberBefore year + 4)
    ofNumber? (fourth.number - fourth.weekday + (7 * (week - 1) + weekday : Nat))
  else none

end Date

/-- A time of day. The nanoseconds of a leap second go on beyond one thousand million. -/
structure Clock where
  hour : Nat
  minute : Nat
  second : Nat
  nanosecond : Nat
  deriving DecidableEq, Repr

def Clock.midnight : Clock := ⟨0, 0, 0, 0⟩

structure Moment where
  date : Date
  clock : Clock
  deriving DecidableEq, Repr

def epoch : Int := 719163

def Moment.timestamp (m : Moment) : Int :=
  (m.date.number - epoch) * 86400 + (m.clock.hour * 3600 + m.clock.minute * 60 + m.clock.second : Nat)

def Moment.ofTimestamp? (n : Int) : Option Moment :=
  let seconds := (n % 86400).toNat
  (Date.ofNumber? (n / 86400 + epoch)).map fun d ↦
    ⟨d, ⟨seconds / 3600, seconds / 60 % 60, seconds % 60, 0⟩⟩

end Stencil.Calendar
