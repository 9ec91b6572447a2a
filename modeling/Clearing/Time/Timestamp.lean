import Clearing.Number.Numeral
import Clearing.Number.Power
import Clearing.Text.Blank
import Clearing.Time.Calendar

/-!
# Points in time

A `Timestamp` is a second of universal time and a fraction in nanoseconds.  A
leap second has no number of its own: it is the second before it with a fraction
of a full second or more, which keeps the order.

Times are read in the common profile of ISO 8601: date, `T` or a space, time,
offset.  Reading is otherwise lenient about blanks and about digits that are left out, but
the offset with its minutes is required.  They are written back in universal
time.
-/

namespace Clearing

/-- A point in time. -/
structure Timestamp where
  /-- Seconds since the beginning of 1970. -/
  seconds : Int
  /-- The fraction; from `10 ^ 9` on it belongs to a leap second. -/
  nanos : Nat
  deriving DecidableEq, Repr

namespace Timestamp

/-- Strictly earlier. -/
def before (a b : Timestamp) : Bool :=
  a.seconds < b.seconds || (a.seconds = b.seconds && a.nanos < b.nanos)

/-! ## Writing -/

/-- A number with at least `width` digits. -/
def padded (width n : Nat) : List Char :=
  let digits := Nat.toDigits 10 n
  List.replicate (width - digits.length) '0' ++ digits

/-- A year: four digits, or a sign and at least four digits outside that range. -/
def yearChars (year : Int) : List Char :=
  if 0 ≤ year ∧ year ≤ 9999 then padded 4 year.toNat
  else (if year < 0 then '-' else '+') :: padded 4 year.natAbs

/-- A fraction of three, six or nine digits, or none. -/
def fractionChars (nanos : Nat) : List Char :=
  if nanos = 0 then []
  else if nanos % 1000000 = 0 then '.' :: padded 3 (nanos / 1000000)
  else if nanos % 1000 = 0 then '.' :: padded 6 (nanos / 1000)
  else '.' :: padded 9 nanos

/-- The time in universal time, with the offset written out. -/
def text (time : Timestamp) : String :=
  let date := Calendar.ofDayNumber (time.seconds / 86400)
  let ofDay := (time.seconds % 86400).toNat
  let leap := time.nanos / 1000000000
  String.ofList
    (yearChars date.year ++ '-' :: padded 2 date.month ++ '-' :: padded 2 date.day ++ 'T' ::
      padded 2 (ofDay / 3600) ++ ':' :: padded 2 (ofDay / 60 % 60) ++ ':' ::
      padded 2 (ofDay % 60 + leap) ++ fractionChars (time.nanos % 1000000000) ++
      ['+', '0', '0', ':', '0', '0'])

/-! ## Reading -/

/-- An ASCII digit. -/
def isDigit (c : Char) : Bool :=
  '0' ≤ c && c ≤ '9'

/-- The number that digits stand for. -/
def digitsValue (digits : List Char) : Nat :=
  digits.foldl (fun value c => 10 * value + (c.toNat - 48)) 0

/-- Without the blanks at the front. -/
def skipBlanks (chars : List Char) : List Char :=
  chars.dropWhile Text.isBlank

/-- Between one and `limit` digits after optional blanks, and what follows. -/
def number? (limit : Nat) (chars : List Char) : Option (Nat × List Char) :=
  let digits := ((skipBlanks chars).takeWhile isDigit).take limit
  if digits.isEmpty then none
  else some (digitsValue digits, (skipBlanks chars).drop digits.length)

/-- A year: up to four digits, or a sign and any number of digits. -/
def year? (chars : List Char) : Option (Int × List Char) :=
  match skipBlanks chars with
  | '-' :: rest => signed rest fun n => -n
  | '+' :: rest => signed rest fun n => n
  | rest => (number? 4 rest).map fun (n, after) => ((n : Int), after)
where
  /-- The digits after a sign, which no blank may precede. -/
  signed (rest : List Char) (sign : Int → Int) : Option (Int × List Char) :=
    let digits := rest.takeWhile isDigit
    if digits.isEmpty then none
    else some (sign (digitsValue digits), rest.drop digits.length)

/-- A separator with optional blanks before it. -/
def separator? (mark : Char) (chars : List Char) : Option (List Char) :=
  match skipBlanks chars with
  | c :: rest => if c = mark then some rest else none
  | [] => none

/-- An optional fraction of a second in nanoseconds; digits after the ninth are dropped. -/
def fraction? : List Char → Option (Nat × List Char)
  | '.' :: rest =>
    let digits := rest.takeWhile isDigit
    if digits.isEmpty then none
    else
      let kept := digits.take 9
      some (digitsValue kept * tenTo (9 - kept.length), rest.drop digits.length)
  | chars => some (0, chars)

/-- The minutes of an offset. -/
def offsetMinutes? : List Char → Option (Nat × List Char)
  | high :: low :: rest =>
    if isDigit high ∧ isDigit low ∧ high < '6' then some (digitsValue [high, low], rest) else none
  | _ => none

/-- The offset from universal time in seconds, and what follows it. -/
def offset? (chars : List Char) : Option (Int × List Char) :=
  match chars with
  | 'Z' :: rest => some (0, rest)
  | 'z' :: rest => some (0, rest)
  | '+' :: rest => (hoursAndMinutes? rest).map fun (seconds, after) => ((seconds : Int), after)
  | '-' :: rest => (hoursAndMinutes? rest).map fun (seconds, after) => (-(seconds : Int), after)
  | '\u2212' :: rest => (hoursAndMinutes? rest).map fun (seconds, after) => (-(seconds : Int), after)
  | u :: t :: c :: rest =>
    if u.toUpper = 'U' ∧ t.toUpper = 'T' ∧ c.toUpper = 'C' then some (0, rest) else none
  | _ => none
where
  /-- Two digits for the hours, colons or blanks, two digits for the minutes. -/
  hoursAndMinutes? : List Char → Option (Nat × List Char)
    | high :: low :: rest =>
      if isDigit high ∧ isDigit low then
        let after := rest.dropWhile fun c => c = ':' || Text.isBlank c
        (offsetMinutes? after).map fun (minutes, tail) =>
          (digitsValue [high, low] * 3600 + minutes * 60, tail)
      else none
    | _ => none

/-- The years that a time can lie in. -/
def yearInRange (year : Int) : Bool :=
  -262143 ≤ year && year ≤ 262142

/-- The point in time of a local date and time with an offset. -/
def ofLocal? (date : Calendar.Date) (hour minute second nanos : Nat) (offset : Int) :
    Option Timestamp :=
  if date.isValid ∧ yearInRange date.year ∧ hour ≤ 23 ∧ minute ≤ 59 ∧ second ≤ 60 ∧
      -86400 < offset ∧ offset < 86400 then
    let leap := second = 60
    let ofDay : Nat := hour * 3600 + minute * 60 + if leap then 59 else second
    let seconds := Calendar.dayNumber date * 86400 + ofDay - offset
    if yearInRange (Calendar.ofDayNumber (seconds / 86400)).year then
      some ⟨seconds, nanos + if leap then 1000000000 else 0⟩
    else none
  else none

/-- The point in time that a text names. -/
def ofChars? (chars : List Char) : Option Timestamp := do
  let (year, chars) ← year? chars
  let chars ← separator? '-' chars
  let (month, chars) ← number? 2 chars
  let chars ← separator? '-' chars
  let (day, chars) ← number? 2 chars
  let chars ← match chars with
    | c :: rest => if c = 'T' ∨ c = 't' ∨ c = ' ' then some rest else none
    | [] => none
  let (hour, chars) ← number? 2 chars
  let chars ← separator? ':' chars
  let (minute, chars) ← number? 2 chars
  let chars ← separator? ':' chars
  let (second, chars) ← number? 2 chars
  let (nanos, chars) ← fraction? chars
  let (offset, chars) ← offset? (skipBlanks chars)
  if (skipBlanks chars).isEmpty then
    ofLocal? ⟨year, month, day⟩ hour minute second nanos offset
  else none

/-- The point in time that a text names. -/
def ofText? (text : String) : Option Timestamp :=
  ofChars? text.toList

private def normalized (text : String) : Option String :=
  (ofText? text).map Timestamp.text

example : normalized "2030-01-01T10:00:00+10:30" = some "2029-12-31T23:30:00+00:00" := by decide +kernel
example : normalized "2016-12-31t23:59:60.5z" = some "2016-12-31T23:59:60.500+00:00" := by decide +kernel
example : normalized "+10000-01-01T00:00:00Z" = some "+10000-01-01T00:00:00+00:00" := by decide +kernel
example : normalized "2030-02-29T00:00:00Z" = none ∧ normalized "2030-01-01T00:00:00+10" = none := by
  decide +kernel

end Timestamp

end Clearing
