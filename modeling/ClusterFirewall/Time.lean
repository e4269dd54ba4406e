import ClusterFirewall.Text.Split

/-!
# Time

A span is a number of nanoseconds. Its text uses the greatest unit that gives a whole part, with as
many digits after the point as are needed.

Events carry a point in time in the form of RFC 3339. It is read with any offset, with blanks
between its parts and with a blank in place of the `T`; it is written in UTC with as many groups of
three digits below the second as it needs. A leap second is kept as a second of two thousand
milliseconds.
-/

namespace ClusterFirewall

/-! ## Spans -/

/-- A length of time. -/
structure Span where
  /-- Its nanoseconds. -/
  nanos : Nat
  deriving DecidableEq, Repr

namespace Span

/-- The span of a number of seconds. -/
def seconds (n : Nat) : Span := ⟨n * 1000000000⟩

/-- The span of a number of milliseconds. -/
def millis (n : Nat) : Span := ⟨n * 1000000⟩

/-- The whole milliseconds of a span. -/
def toMillis (s : Span) : Nat := s.nanos / 1000000

/-- The digits of the part below one, without the zeros at their end. -/
def fractionText (places part : Nat) : String :=
  if part = 0 then ""
  else
    let digits := Nat.toDigits 10 part
    let padded := List.replicate (places - digits.length) '0' ++ digits
    "." ++ String.ofList (padded.reverse.dropWhile (· == '0')).reverse

/-- A number of units of `10 ^ places` nanoseconds. -/
def inUnits (nanos places : Nat) (unit : String) : String :=
  let size := Nat.pow 10 places
  toString (nanos / size) ++ fractionText places (nanos % size) ++ unit

/-- The text of a span. -/
def text (s : Span) : String :=
  if 1000000000 ≤ s.nanos then inUnits s.nanos 9 "s"
  else if 1000000 ≤ s.nanos then inUnits s.nanos 6 "ms"
  else if 1000 ≤ s.nanos then inUnits s.nanos 3 "µs"
  else inUnits s.nanos 0 "ns"

end Span

/-- The nanoseconds of a second. -/
def nanosPerSecond : Nat := 1000000000

/-! ## The calendar -/

/-- A date of the proleptic Gregorian calendar. -/
structure Date where
  year : Int
  month : Nat
  day : Nat
  deriving DecidableEq, Repr

namespace Date

/-- Whether a year has a 29th of February. -/
def isLeap (year : Int) : Bool := year % 4 == 0 && (year % 100 != 0 || year % 400 == 0)

/-- The number of days of a month. -/
def daysOf (year : Int) : Nat → Nat
  | 2 => if isLeap year then 29 else 28
  | 4 | 6 | 9 | 11 => 30
  | _ => 31

/-- The years that dates may have. -/
def yearInRange (year : Int) : Bool := -262143 ≤ year && year ≤ 262142

/-- Whether the calendar has a date. -/
def isValid (d : Date) : Bool :=
  yearInRange d.year && 1 ≤ d.month && d.month ≤ 12 && 1 ≤ d.day && d.day ≤ daysOf d.year d.month

/-- The days from the first of January 1970 to a date. The year is counted from March, so that its
last day is the one that may be missing. -/
def toDays (d : Date) : Int :=
  let y := if d.month ≤ 2 then d.year - 1 else d.year
  let era := y / 400
  let yearOfEra := y - era * 400
  let month : Int := if d.month ≤ 2 then d.month + 9 else d.month - 3
  let dayOfYear : Int := (153 * month + 2) / 5 + d.day - 1
  let dayOfEra := yearOfEra * 365 + yearOfEra / 4 - yearOfEra / 100 + dayOfYear
  era * 146097 + dayOfEra - 719468

/-- The date that lies a number of days after the first of January 1970. -/
def ofDays (days : Int) : Date :=
  -- Days are counted from the first of March of the year zero, in eras of 400 years.
  let z := days + 719468
  let era := z / 146097
  let dayOfEra := z - era * 146097
  let yearOfEra := (dayOfEra - dayOfEra / 1460 + dayOfEra / 36524 - dayOfEra / 146096) / 365
  let dayOfYear := dayOfEra - (365 * yearOfEra + yearOfEra / 4 - yearOfEra / 100)
  let month := (5 * dayOfYear + 2) / 153
  let day := (dayOfYear - (153 * month + 2) / 5 + 1).toNat
  let month' := if month < 10 then month + 3 else month - 9
  let year := yearOfEra + era * 400
  ⟨if month' ≤ 2 then year + 1 else year, month'.toNat, day⟩

end Date

/-! ## Instants -/

/-- A point in time. -/
structure Instant where
  /-- Whole seconds since the first of January 1970 in UTC. -/
  seconds : Int
  /-- Nanoseconds of the second; those of a leap second go on from a thousand million. -/
  nanos : Nat
  deriving DecidableEq, Repr

namespace Instant

/-- The instant that time is counted from. -/
def epoch : Instant := ⟨0, 0⟩

/-! ## Reading -/

/-- One to `width` digits after blanks. -/
def readNumber (width : Nat) (cs : List Char) : Option (Nat × List Char) :=
  let cs := Text.trimStart cs
  let digits := (cs.take width).takeWhile Char.isDigit
  if digits.isEmpty then none
  else some (Nat.ofDigitChars 10 digits 0, cs.drop digits.length)

/-- A year after blanks: four digits, or any number of them after a sign. -/
def readYear (cs : List Char) : Option (Int × List Char) :=
  match Text.trimStart cs with
  | '-' :: rest =>
    let digits := rest.takeWhile Char.isDigit
    if digits.isEmpty then none
    else some (-(Nat.ofDigitChars 10 digits 0 : Int), rest.drop digits.length)
  | '+' :: rest =>
    let digits := rest.takeWhile Char.isDigit
    if digits.isEmpty then none
    else some ((Nat.ofDigitChars 10 digits 0 : Int), rest.drop digits.length)
  | rest => (readNumber 4 rest).map fun r => ((r.1 : Int), r.2)

/-- A mark after blanks. -/
def readMark (mark : Char) (cs : List Char) : Option (List Char) :=
  match Text.trimStart cs with
  | c :: rest => if c = mark then some rest else none
  | [] => none

/-- The nanoseconds after a point, if there is one; digits beyond the ninth are dropped. -/
def readNanos : List Char → Option (Nat × List Char)
  | '.' :: cs =>
    let digits := cs.takeWhile Char.isDigit
    let kept := digits.take 9
    if digits.isEmpty then none
    else some (Nat.ofDigitChars 10 kept 0 * Nat.pow 10 (9 - kept.length), cs.drop digits.length)
  | cs => some (0, cs)

/-- The minutes of an offset: two digits below sixty. -/
def readOffsetMinutes : List Char → Option (Nat × List Char)
  | a :: b :: rest =>
    if a.isDigit && b.isDigit && a.toNat < '6'.toNat then
      some (Nat.ofDigitChars 10 [a, b] 0, rest)
    else none
  | _ => none

/-- The seconds of an offset after its sign. -/
def readOffset (sign : Int) : List Char → Option (Int × List Char)
  | a :: b :: rest =>
    if a.isDigit && b.isDigit then
      let separated := rest.dropWhile fun c => c == ':' || Text.isBlank c
      (readOffsetMinutes separated).map fun r =>
        (sign * (Nat.ofDigitChars 10 [a, b] 0 * 3600 + r.1 * 60 : Nat), r.2)
    else none
  | _ => none

/-- Whether a text starts with the letters `UTC` in either case. -/
def startsWithUtc (cs : List Char) : Bool := (cs.take 3).map Char.toUpper == ['U', 'T', 'C']

/-- The offset from UTC in seconds. -/
def readZone (cs : List Char) : Option (Int × List Char) :=
  if startsWithUtc cs then some (0, cs.drop 3)
  else
    match cs with
    | 'Z' :: rest => some (0, rest)
    | 'z' :: rest => some (0, rest)
    | '+' :: rest => readOffset 1 rest
    | '-' :: rest => readOffset (-1) rest
    | '−' :: rest => readOffset (-1) rest
    | _ => none

/-- The point in time that a text writes. -/
def ofChars? (cs : List Char) : Option Instant := do
  let (year, cs) ← readYear cs
  let cs ← readMark '-' cs
  let (month, cs) ← readNumber 2 cs
  let cs ← readMark '-' cs
  let (day, cs) ← readNumber 2 cs
  let cs ← match cs with
    | 't' :: rest => some rest
    | 'T' :: rest => some rest
    | ' ' :: rest => some rest
    | _ => none
  let (hour, cs) ← readNumber 2 cs
  let cs ← readMark ':' cs
  let (minute, cs) ← readNumber 2 cs
  let cs ← readMark ':' cs
  let (second, cs) ← readNumber 2 cs
  let (nanos, cs) ← readNanos cs
  let (offset, cs) ← readZone (Text.trimStart cs)
  let date : Date := ⟨year, month, day⟩
  let isTime := hour < 24 && minute < 60 && second ≤ 60 && offset.natAbs < 86400
  if !(date.isValid && isTime && (Text.trimStart cs).isEmpty) then none
  else
    let leap := second == 60
    let secondOfDay : Nat := hour * 3600 + minute * 60 + if leap then 59 else second
    let seconds := date.toDays * 86400 + secondOfDay - offset
    if Date.yearInRange (Date.ofDays (seconds / 86400)).year then
      some ⟨seconds, if leap then nanos + nanosPerSecond else nanos⟩
    else none

/-- The point in time that a string writes. -/
def parse? (s : String) : Option Instant := ofChars? s.toList

/-! ## Writing -/

/-- A number with zeros in front up to a width. -/
def padded (width n : Nat) : String :=
  let digits := Nat.toDigits 10 n
  String.ofList (List.replicate (width - digits.length) '0' ++ digits)

/-- The text of a year: four digits, and a sign outside of these. -/
def yearText (year : Int) : String :=
  if 0 ≤ year ∧ year ≤ 9999 then padded 4 year.toNat
  else (if year < 0 then "-" else "+") ++ padded 4 year.natAbs

/-- The text of the part below the second. -/
def nanosText (nanos : Nat) : String :=
  if nanos = 0 then ""
  else if nanos % 1000000 = 0 then "." ++ padded 3 (nanos / 1000000)
  else if nanos % 1000 = 0 then "." ++ padded 6 (nanos / 1000)
  else "." ++ padded 9 nanos

/-- The text of a point in time in UTC. -/
def text (t : Instant) : String :=
  let date := Date.ofDays (t.seconds / 86400)
  let secondOfDay := (t.seconds % 86400).toNat
  let leap := nanosPerSecond ≤ t.nanos
  let second := secondOfDay % 60 + if leap then 1 else 0
  yearText date.year ++ "-" ++ padded 2 date.month ++ "-" ++ padded 2 date.day ++ "T" ++
    padded 2 (secondOfDay / 3600) ++ ":" ++ padded 2 (secondOfDay / 60 % 60) ++ ":" ++
    padded 2 second ++ nanosText (if leap then t.nanos - nanosPerSecond else t.nanos) ++ "Z"

end Instant

end ClusterFirewall
