import Stencil.Calendar.Date
import Stencil.Decimal.Layout
import Stencil.Text.Blank
/-!
Formats of dates and times. A percent sign and a letter stand for a part of the moment, with a mark
for the padding between them where the part is a number; all else stands for itself. A moment has
no offset from universal time, so the parts that show one cannot be written.
-/

namespace Stencil.Calendar

inductive Pad where
  | none
  | zero
  | space
  deriving DecidableEq, Repr

inductive Figure where
  | year
  | century
  | yearOfCentury
  | isoYear
  | isoYearOfCentury
  | quarter
  | month
  | day
  | weekFromSunday
  | weekFromMonday
  | isoWeek
  | dayFromSunday
  | dayFromMonday
  | ordinal
  | hour
  | hour12
  | minute
  | second
  | nanosecond
  | timestamp
  deriving DecidableEq, Repr

inductive Item where
  | literal (s : List Char)
  | space (s : List Char)
  | figure (f : Figure) (pad : Pad)
  | shortMonth
  | longMonth
  | shortWeekday
  | longWeekday
  | lowerHalf
  | upperHalf
  | fraction
  | dottedFraction (digits : Nat)
  | bareFraction (digits : Nat)
  | zoneName
  | offset
  | anyOffset
  | full
  | error
  deriving DecidableEq, Repr

namespace Item

def zeros (f : Figure) : Item := figure f .zero

def blanks (f : Figure) : Item := figure f .space

def text (s : String) : Item := literal s.toList

def slashDate : List Item :=
  [zeros .month, text "/", zeros .day, text "/", zeros .yearOfCentury]

def time : List Item := [zeros .hour, text ":", zeros .minute, text ":", zeros .second]

def halfTime : List Item :=
  [zeros .hour12, text ":", zeros .minute, text ":", zeros .second, space [' '], upperHalf]

/-- The items of a letter behind a percent sign. -/
def ofLetter : Char → List Item
  | 'A' => [longWeekday]
  | 'B' => [longMonth]
  | 'C' => [zeros .century]
  | 'D' => slashDate
  | 'F' => [zeros .year, text "-", zeros .month, text "-", zeros .day]
  | 'G' => [zeros .isoYear]
  | 'H' => [zeros .hour]
  | 'I' => [zeros .hour12]
  | 'M' => [zeros .minute]
  | 'P' => [lowerHalf]
  | 'R' => [zeros .hour, text ":", zeros .minute]
  | 'S' => [zeros .second]
  | 'T' => time
  | 'U' => [zeros .weekFromSunday]
  | 'V' => [zeros .isoWeek]
  | 'W' => [zeros .weekFromMonday]
  | 'X' => time
  | 'Y' => [zeros .year]
  | 'Z' => [zoneName]
  | 'a' => [shortWeekday]
  | 'b' => [shortMonth]
  | 'c' =>
    [shortWeekday, space [' '], shortMonth, space [' '], blanks .day, space [' ']] ++ time ++
      [space [' '], zeros .year]
  | 'd' => [zeros .day]
  | 'e' => [blanks .day]
  | 'f' => [zeros .nanosecond]
  | 'g' => [zeros .isoYearOfCentury]
  | 'h' => [shortMonth]
  | 'j' => [zeros .ordinal]
  | 'k' => [blanks .hour]
  | 'l' => [blanks .hour12]
  | 'm' => [zeros .month]
  | 'n' => [space ['\n']]
  | 'p' => [upperHalf]
  | 'q' => [figure .quarter .none]
  | 'r' => halfTime
  | 's' => [figure .timestamp .none]
  | 't' => [space ['\t']]
  | 'u' => [figure .dayFromMonday .none]
  | 'v' => [blanks .day, text "-", shortMonth, text "-", zeros .year]
  | 'w' => [figure .dayFromSunday .none]
  | 'x' => slashDate
  | 'y' => [zeros .yearOfCentury]
  | 'z' => [offset]
  | '+' => [full]
  | '%' => [text "%"]
  | _ => [error]

/-- The items of a letter, with a padding of its own. -/
def ofPaddedLetter (pad : Pad) (c : Char) : List Item :=
  match ofLetter c with
  | [figure f _] => [figure f pad]
  | _ => [error]

def fractionDigits? : Char → Option Nat
  | '3' => some 3
  | '6' => some 6
  | '9' => some 9
  | _ => none

/-- The items that stand behind a percent sign, and what follows them. -/
def special : List Char → List Item × List Char
  | '-' :: c :: s => (ofPaddedLetter .none c, s)
  | '0' :: c :: s => (ofPaddedLetter .zero c, s)
  | '_' :: c :: s => (ofPaddedLetter .space c, s)
  | '#' :: 'z' :: s => ([anyOffset], s)
  | ':' :: ':' :: ':' :: 'z' :: s => ([offset], s)
  | ':' :: ':' :: 'z' :: s => ([offset], s)
  | ':' :: 'z' :: s => ([offset], s)
  | '.' :: 'f' :: s => ([fraction], s)
  | '.' :: d :: 'f' :: s => match fractionDigits? d with
    | some n => ([dottedFraction n], s)
    | none => ([error], [])
  | d :: 'f' :: s => match fractionDigits? d with
    | some n => ([bareFraction n], s)
    | none => (ofLetter d, 'f' :: s)
  | c :: s => (ofLetter c, s)
  | [] => ([error], [])

def isPlain (c : Char) : Bool := !(c == '%' || Text.isBlank c)

/-- The items of a format. The first argument bounds the number of steps. -/
def itemsFrom : Nat → List Char → List Item
  | 0, _ => []
  | _ + 1, [] => []
  | n + 1, c :: s =>
    if c = '%' then
      let (items, r) := special s
      if items.contains error then [error] else items ++ itemsFrom n r
    else if Text.isBlank c then
      space (c :: s.takeWhile Text.isBlank) :: itemsFrom n (s.dropWhile Text.isBlank)
    else literal (c :: s.takeWhile isPlain) :: itemsFrom n (s.dropWhile isPlain)

/-- The items of a format; one that is none ends them. -/
def ofFormat (format : String) : List Item := itemsFrom format.toList.length format.toList

end Item

def monthNames : List String :=
  ["January", "February", "March", "April", "May", "June", "July", "August", "September",
    "October", "November", "December"]

/-- The names of the weekdays, Monday first. -/
def weekdayNames : List String :=
  ["Monday", "Tuesday", "Wednesday", "Thursday", "Friday", "Saturday", "Sunday"]

def nameAt (names : List String) (n : Nat) : List Char := (names[n]?.getD "").toList

/-- Two digits of a number of one byte. The first one goes on behind the digits from one hundred
on. -/
def twoDigits (n : Nat) (pad : Pad) : List Char :=
  let n := n % 256
  let ones := Char.ofNat (48 + n % 10)
  match n / 10, pad with
  | 0, .none => [ones]
  | 0, .space => [' ', ones]
  | tens, _ => [Char.ofNat (48 + tens), ones]

/-- A number with at least some digits; the sign counts as one of them when blanks pad, and zeros
stand behind it. -/
def padded (digits : Nat) (n : Int) (pad : Pad) (showPlus : Bool) : List Char :=
  let sign := if n < 0 then ['-'] else if showPlus then ['+'] else []
  let figures := Decimal.natText n.natAbs
  let count := if showPlus then digits + 1 else digits
  let gap := count - (sign.length + figures.length)
  match pad with
  | .none => sign ++ figures
  | .zero => sign ++ List.replicate gap '0' ++ figures
  | .space => List.replicate gap ' ' ++ sign ++ figures

/-- A year: four digits, or a sign and more. -/
def yearText (year : Int) (pad : Pad) : List Char :=
  padded 4 year pad (!(decide (0 ≤ year) && decide (year < 10000)))

def Clock.hour12 (c : Clock) : Nat := if c.hour % 12 = 0 then 12 else c.hour % 12

def Clock.subsecond (c : Clock) : Nat := c.nanosecond % 1000000000

/-- A fraction of a second, cut to some digits. -/
def Clock.fractionText (c : Clock) (digits : Nat) : List Char :=
  (Decimal.padZeros 9 (Decimal.natText c.subsecond)).take digits

namespace Moment

def figureText (m : Moment) (f : Figure) (pad : Pad) : List Char :=
  let d := m.date
  let c := m.clock
  match f with
  | .year => yearText d.year pad
  | .century => twoDigits (d.year / 100 % 256).toNat pad
  | .yearOfCentury => twoDigits (d.year % 100).toNat pad
  | .isoYear => yearText d.isoWeek.1 pad
  | .isoYearOfCentury => twoDigits (d.isoWeek.1 % 100).toNat pad
  | .quarter => Decimal.natText d.quarter
  | .month => twoDigits d.month pad
  | .day => twoDigits d.day pad
  | .weekFromSunday => twoDigits (d.weekFrom 6) pad
  | .weekFromMonday => twoDigits (d.weekFrom 0) pad
  | .isoWeek => twoDigits d.isoWeek.2 pad
  | .dayFromSunday => Decimal.natText (Date.daysSince d.weekday 6)
  | .dayFromMonday => Decimal.natText (d.weekday + 1)
  | .ordinal => padded 3 d.ordinal pad false
  | .hour => twoDigits c.hour pad
  | .hour12 => twoDigits c.hour12 pad
  | .minute => twoDigits c.minute pad
  | .second => twoDigits (c.second + c.nanosecond / 1000000000) pad
  | .nanosecond => padded 9 c.subsecond pad false
  | .timestamp => padded 9 m.timestamp pad false

/-- A fraction of a second with as many groups of three digits as it needs. -/
def shortFraction (c : Clock) : List Char :=
  if c.subsecond = 0 then []
  else if c.subsecond % 1000000 = 0 then '.' :: c.fractionText 3
  else if c.subsecond % 1000 = 0 then '.' :: c.fractionText 6
  else '.' :: c.fractionText 9

/-- A moment as an item shows it; nothing for an item that cannot be written. -/
def itemText? (m : Moment) : Item → Option (List Char)
  | .literal s => some s
  | .space s => some s
  | .figure f pad => some (m.figureText f pad)
  | .shortMonth => some ((nameAt monthNames (m.date.month - 1)).take 3)
  | .longMonth => some (nameAt monthNames (m.date.month - 1))
  | .shortWeekday => some ((nameAt weekdayNames m.date.weekday).take 3)
  | .longWeekday => some (nameAt weekdayNames m.date.weekday)
  | .lowerHalf => some (if m.clock.hour < 12 then ['a', 'm'] else ['p', 'm'])
  | .upperHalf => some (if m.clock.hour < 12 then ['A', 'M'] else ['P', 'M'])
  | .fraction => some (shortFraction m.clock)
  | .dottedFraction n => some ('.' :: m.clock.fractionText n)
  | .bareFraction n => some (m.clock.fractionText n)
  | .zoneName => none
  | .offset => none
  | .anyOffset => none
  | .full => none
  | .error => none

def itemsText? (m : Moment) : List Item → Option (List Char)
  | [] => some []
  | i :: is => (m.itemText? i).bind fun s ↦ (m.itemsText? is).map (s ++ ·)

def format? (m : Moment) (format : String) : Option String :=
  (m.itemsText? (Item.ofFormat format)).map String.ofList

end Moment

end Stencil.Calendar
