import Stencil.Power
import Stencil.Calendar.Format
import Stencil.Text.Offset
/-!
Reading moments by a format. The items take parts off the text and note what they say; parts that
contradict each other are refused at once. What has been noted is then resolved to a date and a
time of day, and everything noted must agree with the result.
-/

namespace Stencil.Calendar

/-- Why a text is no moment of a format. -/
inductive Fault where
  | outOfRange
  | impossible
  | notEnough
  | invalid
  | tooShort
  | tooLong
  | badFormat
  deriving DecidableEq, Repr

def Fault.message : Fault → String
  | outOfRange => "input is out of range"
  | impossible => "no possible date and time matching input"
  | notEnough => "input is not enough for unique date and time"
  | invalid => "input contains invalid characters"
  | tooShort => "premature end of input"
  | tooLong => "trailing input"
  | badFormat => "bad or unsupported format string"

/-- What has been noted. Hours are noted as a half of the day and an hour in it. -/
structure Notes where
  year : Option Int
  century : Option Int
  yearOfCentury : Option Int
  isoYear : Option Int
  isoYearOfCentury : Option Int
  quarter : Option Int
  month : Option Int
  day : Option Int
  weekFromSunday : Option Int
  weekFromMonday : Option Int
  isoWeek : Option Int
  weekday : Option Int
  ordinal : Option Int
  half : Option Int
  hourOfHalf : Option Int
  minute : Option Int
  second : Option Int
  nanosecond : Option Int
  timestamp : Option Int
  offset : Option Int

def Notes.empty : Notes :=
  ⟨none, none, none, none, none, none, none, none, none, none, none, none, none, none, none, none,
    none, none, none, none⟩

/-- Notes a value, which must be the one noted before, if there is one. -/
def note (old : Option Int) (value : Int) : Except Fault (Option Int) :=
  match old with
  | none => .ok (some value)
  | some v => if v = value then .ok old else .error .impossible

def noteWithin (low high : Int) (old : Option Int) (value : Int) : Except Fault (Option Int) :=
  if low ≤ value ∧ value ≤ high then note old value else .error .outOfRange

/-- The greatest number of a signed word of 32 bits. -/
def maxYearNote : Int := twoTo 31 - 1

/-- The greatest number of a signed word of 64 bits. -/
def maxNumber : Nat := twoTo 63 - 1

namespace Notes

def setHour (t : Notes) (v : Int) : Except Fault Notes :=
  if 0 ≤ v ∧ v ≤ 23 then do
    let half ← note t.half (v / 12)
    let hourOfHalf ← note t.hourOfHalf (v % 12)
    .ok { t with half, hourOfHalf }
  else .error .outOfRange

def set (t : Notes) (f : Figure) (v : Int) : Except Fault Notes :=
  match f with
  | .year => (noteWithin (-maxYearNote - 1) maxYearNote t.year v).map fun x ↦ { t with year := x }
  | .century => (noteWithin 0 maxYearNote t.century v).map fun x ↦ { t with century := x }
  | .yearOfCentury => (noteWithin 0 99 t.yearOfCentury v).map fun x ↦ { t with yearOfCentury := x }
  | .isoYear => (noteWithin (-maxYearNote - 1) maxYearNote t.isoYear v).map fun x ↦ { t with isoYear := x }
  | .isoYearOfCentury =>
    (noteWithin 0 99 t.isoYearOfCentury v).map fun x ↦ { t with isoYearOfCentury := x }
  | .quarter => (noteWithin 1 4 t.quarter v).map fun x ↦ { t with quarter := x }
  | .month => (noteWithin 1 12 t.month v).map fun x ↦ { t with month := x }
  | .day => (noteWithin 1 31 t.day v).map fun x ↦ { t with day := x }
  | .weekFromSunday => (noteWithin 0 53 t.weekFromSunday v).map fun x ↦ { t with weekFromSunday := x }
  | .weekFromMonday => (noteWithin 0 53 t.weekFromMonday v).map fun x ↦ { t with weekFromMonday := x }
  | .isoWeek => (noteWithin 1 53 t.isoWeek v).map fun x ↦ { t with isoWeek := x }
  | .dayFromSunday =>
    if 0 ≤ v ∧ v ≤ 6 then (note t.weekday ((v + 6) % 7)).map fun x ↦ { t with weekday := x }
    else .error .outOfRange
  | .dayFromMonday =>
    if 1 ≤ v ∧ v ≤ 7 then (note t.weekday (v - 1)).map fun x ↦ { t with weekday := x }
    else .error .outOfRange
  | .ordinal => (noteWithin 1 366 t.ordinal v).map fun x ↦ { t with ordinal := x }
  | .hour => t.setHour v
  | .hour12 =>
    if 1 ≤ v ∧ v ≤ 12 then (note t.hourOfHalf (v % 12)).map fun x ↦ { t with hourOfHalf := x }
    else .error .outOfRange
  | .minute => (noteWithin 0 59 t.minute v).map fun x ↦ { t with minute := x }
  | .second => (noteWithin 0 60 t.second v).map fun x ↦ { t with second := x }
  | .nanosecond => (noteWithin 0 999999999 t.nanosecond v).map fun x ↦ { t with nanosecond := x }
  | .timestamp => (note t.timestamp v).map fun x ↦ { t with timestamp := x }

/-- Notes a weekday by its place in the week, Monday first. -/
def setWeekday (t : Notes) (v : Nat) : Except Fault Notes :=
  (note t.weekday v).map fun x ↦ { t with weekday := x }

def setHalf (t : Notes) (v : Int) : Except Fault Notes := (note t.half v).map fun x ↦ { t with half := x }

/-- Notes an offset from universal time, in seconds. -/
def setOffset (t : Notes) (v : Int) : Except Fault Notes :=
  (note t.offset v).map fun x ↦ { t with offset := x }

end Notes

/-- The digits that text begins with, at most `most` of them where that is given. -/
def leadingDigits (most : Option Nat) (s : List Char) : List Char :=
  ((most.map s.take).getD s).takeWhile Char.isDigit

/-- A number of at least `least` digits and at most `most`. -/
def readDigits (least : Nat) (most : Option Nat) (s : List Char) : Except Fault (Int × List Char) :=
  if Text.width s < least then .error .tooShort
  else
    let ds := leadingDigits most s
    let n := ds.foldl (fun n c ↦ n * 10 + (c.toNat - 48)) 0
    if ds.length < least then .error .invalid
    else if maxNumber < n then .error .outOfRange
    else .ok ((n : Int), s.drop ds.length)

def Figure.most : Figure → Option Nat
  | .year => some 4
  | .isoYear => some 4
  | .quarter => some 1
  | .dayFromSunday => some 1
  | .dayFromMonday => some 1
  | .ordinal => some 3
  | .nanosecond => some 9
  | .timestamp => none
  | _ => some 2

def Figure.isSigned : Figure → Bool
  | .year => true
  | .isoYear => true
  | _ => false

/-- A number of an item; behind a sign it may have any number of digits. -/
def readFigure (f : Figure) (s : List Char) : Except Fault (Int × List Char) :=
  match f.isSigned, Text.trimStart s with
  | true, '-' :: r => (readDigits 1 none r).map fun p ↦ (-p.1, p.2)
  | true, '+' :: r => readDigits 1 none r
  | _, r => readDigits 1 f.most r

def lowered (c : Char) : Char := if c.isUpper then c.toLower else c

/-- What follows a word at the beginning of text, in any case. -/
def stripWord? : List Char → List Char → Option (List Char)
  | [], s => some s
  | _ :: _, [] => none
  | p :: ps, c :: s => if lowered p = lowered c then stripWord? ps s else none

/-- The place of the first name of a list whose first three letters text begins with. -/
def findName (s : List Char) : Nat → List String → Option (Nat × List Char)
  | _, [] => none
  | i, n :: ns => match stripWord? (n.toList.take 3) s with
    | some r => some (i, r)
    | none => findName s (i + 1) ns

/-- A name of a list by its first three letters; the others may follow when `long`. -/
def readName (names : List String) (long : Bool) (s : List Char) : Except Fault (Nat × List Char) :=
  if Text.width s < 3 then .error .tooShort
  else match findName s 0 names with
    | none => .error .invalid
    | some (i, r) =>
      if long then .ok (i, (stripWord? ((nameAt names i).drop 3) r).getD r) else .ok (i, r)

def readHalf (s : List Char) : Except Fault (Int × List Char) :=
  if Text.width s < 2 then .error .tooShort
  else match stripWord? ['a', 'm'] s, stripWord? ['p', 'm'] s with
    | some r, _ => .ok (0, r)
    | _, some r => .ok (1, r)
    | _, _ => .error .invalid

/-- A fraction of a second in nanoseconds; digits behind the ninth do not count. -/
def readFraction (s : List Char) : Except Fault (Int × List Char) := do
  let (n, r) ← readDigits 1 (some 9) s
  .ok (n * tenTo (9 - (s.length - r.length)), r.dropWhile Char.isDigit)

/-- A fraction of a second of exactly some digits, in nanoseconds. -/
def readBareFraction (digits : Nat) (s : List Char) : Except Fault (Int × List Char) :=
  (readDigits digits (some digits) s).map fun p ↦ (p.1 * tenTo (9 - digits), p.2)

def digit? (c : Char) : Option Nat := if c.isDigit then some (c.toNat - 48) else none

/-- Two digits; a text of fewer than two bytes is too short. -/
def readTwo (s : List Char) : Except Fault (Nat × List Char) :=
  if Text.width s < 2 then .error .tooShort
  else match s with
    | a :: b :: r => match digit? a, digit? b with
      | some x, some y => .ok (x * 10 + y, r)
      | _, _ => .error .invalid
    | _ => .error .invalid

def readSign : List Char → Except Fault (Bool × List Char)
  | '+' :: r => .ok (false, r)
  | '-' :: r => .ok (true, r)
  | '\u2212' :: r => .ok (true, r)
  | [] => .error .tooShort
  | _ => .error .invalid

/-- The minutes of an offset, and what follows them. -/
def readMinutes (mayLack : Bool) (s : List Char) : Except Fault (Nat × List Char) :=
  if Text.width s < 2 then
    if mayLack && s.isEmpty then .ok (0, []) else .error .tooShort
  else do
    let (minutes, r) ← readTwo s
    if minutes < 60 then .ok (minutes, r) else .error .outOfRange

/-- An offset from universal time in seconds: a sign, hours and minutes, with colons or blanks
between. A permissive offset may be a letter alone, and may lack the minutes. -/
def readOffset (mayBeLetter mayLackMinutes : Bool) (s : List Char) : Except Fault (Int × List Char) :=
  match mayBeLetter, s with
  | true, 'Z' :: r => .ok (0, r)
  | true, 'z' :: r => .ok (0, r)
  | _, s => do
    let (negative, r) ← readSign s
    let (hours, r) ← readTwo r
    let (minutes, r) ← readMinutes mayLackMinutes (r.dropWhile fun c ↦ c == ':' || Text.isBlank c)
    let seconds : Int := (hours * 3600 + minutes * 60 : Nat)
    .ok (if negative then -seconds else seconds, r)

def readLiteral (p s : List Char) : Except Fault (List Char) :=
  if Text.width s < Text.width p then .error .tooShort
  else match Text.stripPrefix? p s with
    | some r => .ok r
    | none => .error .invalid

def readSeparator : List Char → Except Fault (List Char)
  | [] => .error .tooShort
  | c :: r => if c = 'T' ∨ c = 't' ∨ c = ' ' then .ok r else .error .invalid

/-- Notes figures with separators between them; blanks may stand before a separator. -/
def readFigures (separator : Char) : Notes → List Char → List Figure → Except Fault (Notes × List Char)
  | t, s, [] => .ok (t, s)
  | t, s, f :: fs => do
    let (v, r) ← readFigure f s
    let t ← t.set f v
    match fs with
    | [] => .ok (t, r)
    | g :: gs => do
      let r ← readLiteral [separator] (Text.trimStart r)
      readFigures separator t r (g :: gs)

/-- Notes a fraction of a second, if text begins with one. -/
def readPointFraction (t : Notes) (s : List Char) : Except Fault (Notes × List Char) :=
  match s with
  | '.' :: r => do
    let (v, r) ← readFraction r
    let t ← t.set .nanosecond v
    .ok (t, r)
  | s => .ok (t, s)

/-- Notes a full moment: a date, a time and an offset, or the letters of universal time. -/
def readFull (t : Notes) (s : List Char) : Except Fault (Notes × List Char) := do
  let (t, s) ← readFigures '-' t s [.year, .month, .day]
  let s ← readSeparator s
  let (t, s) ← readFigures ':' t s [.hour, .minute, .second]
  let (t, s) ← readPointFraction t s
  let s := Text.trimStart s
  let (offset, s) ← match stripWord? ['U', 'T', 'C'] s with
    | some r => .ok ((0 : Int), r)
    | none => readOffset true false s
  let t ← t.setOffset offset
  .ok (t, s)

def readItem (t : Notes) (s : List Char) : Item → Except Fault (Notes × List Char)
  | .literal p => (readLiteral p s).map fun r ↦ (t, r)
  | .space _ => .ok (t, Text.trimStart s)
  | .figure f _ => do
    let (v, r) ← readFigure f s
    let t ← t.set f v
    .ok (t, r)
  | .shortMonth => do
    let (i, r) ← readName monthNames false s
    let t ← t.set .month (i + 1 : Nat)
    .ok (t, r)
  | .longMonth => do
    let (i, r) ← readName monthNames true s
    let t ← t.set .month (i + 1 : Nat)
    .ok (t, r)
  | .shortWeekday => do
    let (i, r) ← readName weekdayNames false s
    let t ← t.setWeekday i
    .ok (t, r)
  | .longWeekday => do
    let (i, r) ← readName weekdayNames true s
    let t ← t.setWeekday i
    .ok (t, r)
  | .lowerHalf => do
    let (v, r) ← readHalf s
    let t ← t.setHalf v
    .ok (t, r)
  | .upperHalf => do
    let (v, r) ← readHalf s
    let t ← t.setHalf v
    .ok (t, r)
  | .fraction => readPointFraction t s
  | .dottedFraction _ => readPointFraction t s
  | .bareFraction n => do
    let (v, r) ← readBareFraction n s
    let t ← t.set .nanosecond v
    .ok (t, r)
  | .zoneName => .ok (t, s.dropWhile fun c ↦ !Text.isBlank c)
  | .offset => do
    let (v, r) ← readOffset false false (Text.trimStart s)
    let t ← t.setOffset v
    .ok (t, r)
  | .anyOffset => do
    let (v, r) ← readOffset true true (Text.trimStart s)
    let t ← t.setOffset v
    .ok (t, r)
  | .full => readFull t s
  | .error => .error .badFormat

/-- Notes what items take off text, which they must take as a whole. -/
def readItems (t : Notes) (s : List Char) : List Item → Except Fault Notes
  | [] => if s.isEmpty then .ok t else .error .tooLong
  | i :: is => do
    let (t, s) ← readItem t s i
    readItems t s is

/-- The year that a whole year, a century and a year of it amount to. Two digits alone stand for the
years from 1970 to 2069. -/
def resolveYear (year century ofCentury : Option Int) : Except Fault (Option Int) :=
  match year, century, ofCentury with
  | y, none, none => .ok y
  | some y, q, r =>
    if y < 0 then .error .impossible
    else if q.getD (y / 100) = y / 100 ∧ r.getD (y % 100) = y % 100 then .ok (some y)
    else .error .impossible
  | none, some q, some r =>
    let y := q * 100 + r
    if y ≤ maxYearNote then .ok (some y) else .error .outOfRange
  | none, none, some r => .ok (some (r + if r < 70 then 2000 else 1900))
  | none, some _, none => .error .notEnough

/-- Whether a note, if there is one, says a value. -/
def agrees (n : Option Int) (value : Int) : Bool := n.getD value == value

/-- Whether notes of a century and a year of it, if there are any, say the parts of a year that is
not negative. -/
def agreesInParts (century ofCentury : Option Int) (year : Int) : Bool :=
  if year < 0 then century.isNone && ofCentury.isNone
  else agrees century (year / 100) && agrees ofCentury (year % 100)

namespace Notes

def agreesMonthDay (t : Notes) (d : Date) : Bool :=
  agrees t.year d.year && agreesInParts t.century t.yearOfCentury d.year && agrees t.month d.month &&
    agrees t.day d.day

def agreesIsoWeek (t : Notes) (d : Date) : Bool :=
  let (year, week) := d.isoWeek
  agrees t.isoYear year && agreesInParts none t.isoYearOfCentury year && agrees t.isoWeek week &&
    agrees t.weekday d.weekday

def agreesOrdinal (t : Notes) (d : Date) : Bool :=
  agrees t.ordinal d.ordinal && agrees t.weekFromSunday (d.weekFrom 6) &&
    agrees t.weekFromMonday (d.weekFrom 0)

/-- The date of a weekday of a week of a year, where weeks begin with a given weekday. -/
def ofWeek (year week weekday : Int) (first : Nat) : Except Fault Date :=
  match Date.ofOrdinal? year 1 with
  | none => .error .outOfRange
  | some d =>
    let start : Int := 1 + Date.daysSince first d.weekday
    let ordinal := start + (week - 1) * 7 + Date.daysSince weekday.toNat first
    if ordinal ≤ 0 then .error .impossible
    else match Date.ofOrdinal? year ordinal.toNat with
      | some d => .ok d
      | none => .error .impossible

def orOutOfRange : Option Date → Except Fault Date
  | some d => .ok d
  | none => .error .outOfRange

/-- The date that notes name first, and whether the others that could name it agree. -/
def candidate (t : Notes) (year isoYear : Option Int) : Except Fault (Date × Bool) :=
  let checked (d : Date) : Date × Bool :=
    (d, t.agreesMonthDay d && t.agreesIsoWeek d && t.agreesOrdinal d)
  match year, t.month, t.day, t.ordinal, t.weekFromSunday, t.weekFromMonday, t.weekday with
  | some y, some m, some d, _, _, _, _ =>
    (orOutOfRange (Date.ofMonthDay? y m.toNat d.toNat)).map fun d ↦
      (d, t.agreesIsoWeek d && t.agreesOrdinal d)
  | some y, _, _, some o, _, _, _ => (orOutOfRange (Date.ofOrdinal? y o.toNat)).map checked
  | some y, _, _, _, some w, _, some wd => (ofWeek y w wd 6).map checked
  | some y, _, _, _, _, some w, some wd => (ofWeek y w wd 0).map checked
  | _, _, _, _, _, _, some wd => match isoYear, t.isoWeek with
    | some y, some w => (orOutOfRange (Date.ofIsoWeek? y w.toNat wd.toNat)).map fun d ↦
      (d, t.agreesMonthDay d && t.agreesOrdinal d)
    | _, _ => .error .notEnough
  | _, _, _, _, _, _, _ => .error .notEnough

def date (t : Notes) : Except Fault Date := do
  let year ← resolveYear t.year t.century t.yearOfCentury
  let isoYear ← resolveYear t.isoYear none t.isoYearOfCentury
  let (d, agreed) ← t.candidate year isoYear
  if agreed && agrees t.quarter d.quarter then .ok d else .error .impossible

/-- The time of day that notes amount to. Seconds may lack, and the sixtieth is a leap second. -/
def clock (t : Notes) : Except Fault Clock :=
  match t.half, t.hourOfHalf, t.minute with
  | some half, some hour, some minute =>
    let (second, extra) : Int × Int := match t.second with
      | some 60 => (59, 1000000000)
      | some s => (s, 0)
      | none => (0, 0)
    if t.second.isNone && t.nanosecond.isSome then .error .notEnough
    else .ok ⟨(half * 12 + hour).toNat, minute.toNat, second.toNat,
      (extra + t.nanosecond.getD 0).toNat⟩
  | _, _, _ => .error .notEnough

/-- Whether a timestamp is that of a moment. In a leap second it may be a second ahead. -/
def agreesTimestamp (t : Notes) (m : Moment) : Bool :=
  match t.timestamp with
  | none => true
  | some n =>
    n == m.timestamp || (decide (1000000000 ≤ m.clock.nanosecond) && n == m.timestamp + 1)

def secondBefore (m : Moment) : Moment := (Moment.ofTimestamp? (m.timestamp - 1)).getD m

/-- The moment of a timestamp, which all notes must agree with. -/
def momentOfTimestamp (t : Notes) (n : Int) : Except Fault Moment := do
  match Moment.ofTimestamp? n with
  | none => .error .outOfRange
  | some m =>
    let (m, t) ←
      if t.second = some 60 then
        if m.clock.second = 59 then .ok (m, t)
        else if m.clock.second = 0 then .ok (secondBefore m, t)
        else .error .impossible
      else (t.set .second m.clock.second).map fun t ↦ (m, t)
    let t ← t.set .year m.date.year
    let t ← t.set .ordinal m.date.ordinal
    let t ← t.setHour m.clock.hour
    let t ← t.set .minute m.clock.minute
    let date ← t.date
    let clock ← t.clock
    .ok ⟨date, clock⟩

def moment (t : Notes) : Except Fault Moment :=
  match t.date, t.clock with
  | .ok date, .ok clock =>
    let m : Moment := ⟨date, clock⟩
    if t.agreesTimestamp m then .ok m else .error .impossible
  | date, clock => match t.timestamp with
    | none => date.bind fun d ↦ clock.map fun c ↦ ⟨d, c⟩
    | some n => match date, clock with
      | .error .outOfRange, _ => .error .outOfRange
      | _, .error .outOfRange => .error .outOfRange
      | .error .impossible, _ => .error .impossible
      | _, .error .impossible => .error .impossible
      | _, _ => t.momentOfTimestamp n

end Notes

namespace Moment

/-- The moment of a text in a format. A date without a time of day is its midnight. -/
def parse (text format : String) : Except Fault Moment :=
  match readItems Notes.empty text.toList (Item.ofFormat format) with
  | .error e => .error e
  | .ok t => match t.moment with
    | .ok m => .ok m
    | .error _ => t.date.map fun d ↦ ⟨d, Clock.midnight⟩

end Moment

end Stencil.Calendar
