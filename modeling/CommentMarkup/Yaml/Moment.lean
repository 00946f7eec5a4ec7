/-
# Dates and times

A moment is a date, or a date with a time of day, which may tell its time zone.  Two moments
with a time zone are the same if they fall on the same instant, whatever their zones are.
-/
import CommentMarkup.Yaml.Number

namespace CommentMarkup.Yaml

/-- A date. -/
structure Date where
  /-- The year. -/
  year : Nat
  /-- The month, counted from one. -/
  month : Nat
  /-- The day of the month, counted from one. -/
  day : Nat
deriving DecidableEq, Repr

/-- The distance of a time zone from the common one. -/
structure Zone where
  /-- Whether the zone lies west. -/
  negative : Bool
  /-- The distance in minutes. -/
  minutes : Nat
deriving DecidableEq, Repr

/-- A time of day. -/
structure TimeOfDay where
  /-- The hour. -/
  hour : Nat
  /-- The minute. -/
  minute : Nat
  /-- The second. -/
  second : Nat
  /-- The millionths of a second. -/
  micro : Nat
  /-- The time zone, if it is told. -/
  zone : Option Zone
deriving DecidableEq, Repr

/-- A date, or a date with a time. -/
structure Moment where
  /-- The date. -/
  date : Date
  /-- The time. -/
  time : Option TimeOfDay
deriving DecidableEq, Repr

/-! ### Ranges -/

namespace Date

/-- Whether a year has a leap day. -/
def isLeap (year : Nat) : Bool :=
  decide (year % 4 = 0 ∧ (year % 100 ≠ 0 ∨ year % 400 = 0))

/-- The number of days of a month. -/
def daysOf (year month : Nat) : Nat :=
  if month = 2 then if isLeap year then 29 else 28
  else if month = 4 ∨ month = 6 ∨ month = 9 ∨ month = 11 then 30
  else 31

/-- Checks a date. -/
def check (d : Date) : Reading Unit :=
  if d.year = 0 then .error (.invalid "year 0 is out of range".toList)
  else if d.month < 1 ∨ 12 < d.month then .error (.invalid "month must be in 1..12".toList)
  else if d.day < 1 ∨ daysOf d.year d.month < d.day then
    .error (.invalid "day is out of range for month".toList)
  else .ok ()

/-- The number of days from the first day of the first year up to a date. -/
def number (d : Date) : Nat :=
  let years := d.year - 1
  let leapDays := years / 4 - years / 100 + years / 400
  (List.range (d.month - 1)).foldl (fun days m => days + daysOf d.year (m + 1))
    (365 * years + leapDays) + d.day

end Date

/-- A span of minutes as days and seconds, where the seconds are not negative. -/
def writtenSpan (negative : Bool) (minutes : Nat) : Text :=
  let total : Int := if negative then -(minutes : Int) else minutes
  let days := total / 1440
  let seconds := (total % 1440) * 60
  let parts := (if days = 0 then [] else ["days=".toList ++ Decimal.writtenInt days])
    ++ (if seconds = 0 then [] else ["seconds=".toList ++ Decimal.writtenInt seconds])
  "datetime.timedelta(".toList ++ List.intercalate ", ".toList parts ++ ")".toList

/-- Checks that a time zone is less than a day away. -/
def Zone.check (z : Zone) : Reading Unit :=
  if 1440 ≤ z.minutes then
    .error (.invalid ("offset must be a timedelta strictly between ".toList
      ++ "-timedelta(hours=24) and timedelta(hours=24), not ".toList
      ++ writtenSpan z.negative z.minutes ++ ".".toList))
  else .ok ()

/-- Checks a time of day apart from its zone. -/
def TimeOfDay.check (t : TimeOfDay) : Reading Unit :=
  if 23 < t.hour then .error (.invalid "hour must be in 0..23".toList)
  else if 59 < t.minute then .error (.invalid "minute must be in 0..59".toList)
  else if 59 < t.second then .error (.invalid "second must be in 0..59".toList)
  else .ok ()

/-- Checks a moment: its zone comes first, then its date, then its time. -/
def Moment.check (m : Moment) : Reading Unit := do
  match m.time.bind (·.zone) with
  | some z => z.check
  | none => pure ()
  m.date.check
  match m.time with
  | some t => t.check
  | none => pure ()

/-! ### Written forms -/

/-- A number filled up with zeros to a width. -/
def padded (width n : Nat) : Text :=
  let digits := decimal n
  List.replicate (width - digits.length) '0' ++ digits

/-- The written form of a date. -/
def Date.written (d : Date) : Text :=
  padded 4 d.year ++ '-' :: padded 2 d.month ++ '-' :: padded 2 d.day

/-- The written form of a time zone. -/
def Zone.written (z : Zone) : Text :=
  (if z.negative ∧ z.minutes ≠ 0 then '-' else '+') :: padded 2 (z.minutes / 60)
    ++ ':' :: padded 2 (z.minutes % 60)

/-- The written form of a time of day; a fraction that is zero is left out. -/
def TimeOfDay.written (t : TimeOfDay) : Text :=
  padded 2 t.hour ++ ':' :: padded 2 t.minute ++ ':' :: padded 2 t.second
    ++ (if t.micro = 0 then [] else '.' :: padded 6 t.micro)
    ++ (t.zone.map Zone.written).getD []

/-- The written form of a moment. -/
def Moment.written (m : Moment) : Text :=
  match m.time with
  | none => m.date.written
  | some t => m.date.written ++ ' ' :: t.written

/-! ### Instants -/

/-- The minutes from the beginning of the first year up to a time in its zone, and the
millionths of a second after that. -/
def TimeOfDay.instant (d : Date) (t : TimeOfDay) (z : Zone) : Int × Nat :=
  let minutes := (d.number * 24 + t.hour) * 60 + t.minute
  let distance : Int := if z.negative then -(z.minutes : Int) else z.minutes
  (minutes - distance, t.second * 1000000 + t.micro)

/-- Whether two moments are the same.  Zones matter only in that both have one, or neither. -/
def Moment.same (a b : Moment) : Bool :=
  match a.time, b.time with
  | some s, some t =>
    match s.zone, t.zone with
    | some y, some z => decide (s.instant a.date y = t.instant b.date z)
    | none, none => decide (a = b)
    | _, _ => false
  | none, none => decide (a = b)
  | _, _ => false

/-! ### Spellings -/

namespace Moment

open Number (decimalValue)

/-- One or two digits, and what follows. -/
def shortNumber? (s : Text) : Option (Nat × Text) :=
  match s with
  | a :: b :: rest =>
    if a.isDigit then
      if b.isDigit then some (decimalValue [a, b], rest) else some (decimalValue [a], b :: rest)
    else none
  | [a] => if a.isDigit then some (decimalValue [a], []) else none
  | [] => none

/-- One or two digits after a hyphen, and what follows. -/
def shortAfterHyphen? : Text → Option (Nat × Text)
  | '-' :: rest => shortNumber? rest
  | _ => none

/-- Two digits after a separator, and what follows. -/
def pairAfter? (separator : Char) : Text → Option (Nat × Text)
  | c :: a :: b :: rest =>
    if c = separator && a.isDigit && b.isDigit then some (decimalValue [a, b], rest) else none
  | _ => none

/-- The date at the beginning of a text, and what follows. -/
def date? : Text → Option (Date × Text)
  | a :: b :: c :: d :: rest =>
    if [a, b, c, d].all Char.isDigit then do
      let (month, rest) ← shortAfterHyphen? rest
      let (day, rest) ← shortAfterHyphen? rest
      return (⟨decimalValue [a, b, c, d], month, day⟩, rest)
    else none
  | _ => none

/-- Reads the end of a time, which gives its zone and may be missing. -/
def zone? (s : Text) : Option (Option Zone) :=
  match s.dropWhile fun c => c = ' ' || c = '\t' with
  | [] => if s = [] then some none else none
  | ['Z'] => some (some ⟨false, 0⟩)
  | sign :: rest =>
    if sign = '+' ∨ sign = '-' then do
      let (hours, rest) ← shortNumber? rest
      let minutes ← match rest with
        | [] => some 0
        | _ => match pairAfter? ':' rest with
          | some (m, []) => some m
          | _ => none
      return some ⟨decide (sign = '-'), hours * 60 + minutes⟩
    else none

/-- The fraction of a second in millionths, and what follows.  Further digits are dropped. -/
def fraction : Text → Nat × Text
  | '.' :: rest =>
    let digits := (rest.takeWhile Char.isDigit).take 6
    (decimalValue (digits ++ List.replicate (6 - digits.length) '0'), rest.dropWhile Char.isDigit)
  | s => (0, s)

/-- What separates the time from the date, and what follows. -/
def afterDate? : Text → Option Text
  | c :: rest =>
    if c = 'T' ∨ c = 't' then some rest
    else if c = ' ' ∨ c = '\t' then some (rest.dropWhile fun d => d = ' ' || d = '\t')
    else none
  | [] => none

/-- Reads a time of day. -/
def time? (s : Text) : Option TimeOfDay := do
  let (hour, rest) ← shortNumber? s
  let (minute, rest) ← pairAfter? ':' rest
  let (second, rest) ← pairAfter? ':' rest
  let (micro, rest) := fraction rest
  let zone ← zone? rest
  return { hour, minute, second, micro, zone }

/-- Reads a date, with or without a time, if the text has the form of one.  Its numbers may be
out of their ranges. -/
def ofText? (s : Text) : Option Moment := do
  let (date, rest) ← date? s
  if rest = [] then return ⟨date, none⟩
  else
    let time ← time? (← afterDate? rest)
    return ⟨date, some time⟩

/-- Whether a text is by itself taken for a moment: a date without a time must have two digits
for its month and its day. -/
def isSpelled (s : Text) : Bool :=
  match ofText? s with
  | some m => m.time.isSome || decide (s.length = 10)
  | none => false

/-- The moment that a text stands for. -/
def read (s : Text) : Reading Moment :=
  match ofText? s with
  | none => .error (.odd .noMoment)
  | some m => do
    m.check
    return m

end Moment

end CommentMarkup.Yaml
