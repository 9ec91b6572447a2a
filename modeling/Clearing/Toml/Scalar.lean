import Clearing.Settings.Node
import Clearing.Time.Calendar
import Clearing.Toml.Text

/-!
# Numbers, dates and truth values of TOML

Digits may be grouped by single underscores.  Whole numbers have 64 bits and a
sign; they may be written in base sixteen, eight or two, and then without a sign
in front.  A number with a fraction or an exponent is a floating-point number.
-/

namespace Clearing.Toml

/-! ## Digits -/

/-- The digits of a base after the first one, grouped by underscores. -/
def moreDigits (base : Nat) : Nat → List Char → List Nat × List Char
  | 0, chars => ([], chars)
  | fuel + 1, chars =>
    let digit? (c : Char) : Option Nat := (Text.hexValue? c).filter (· < base)
    match chars with
    | [] => ([], [])
    | c :: rest =>
      match digit? c with
      | some digit =>
        let (digits, rest) := moreDigits base fuel rest
        (digit :: digits, rest)
      | none =>
        match c, rest.head?.bind digit? with
        | '_', some digit =>
          let (digits, rest) := moreDigits base fuel (rest.drop 1)
          (digit :: digits, rest)
        | _, _ => ([], chars)

/-- At least one digit of a base; the first is not an underscore. -/
def digits? (base : Nat) (chars : List Char) : Option (List Nat × List Char) :=
  if chars.head? = some '_' then none
  else
    let (digits, rest) := moreDigits base chars.length chars
    if digits.isEmpty then none else some (digits, rest)

/-- The number that digits of a base stand for. -/
def number (base : Nat) (digits : List Nat) : Nat :=
  digits.foldl (fun value digit => base * value + digit) 0

/-- An optional sign; true for a minus. -/
def sign : List Char → Bool × List Char
  | '+' :: rest => (false, rest)
  | '-' :: rest => (true, rest)
  | chars => (false, chars)

/-- The digits of a decimal number; a zero stands alone. -/
def wholeDigits? : List Char → Option (List Nat × List Char)
  | '0' :: rest => some ([0], rest)
  | chars => digits? 10 chars

/-! ## Numbers -/

/-- A number that fits 64 bits with a sign. -/
def fitting? (negative : Bool) (magnitude : Nat) : Option ConfigNode :=
  let value : Int := if negative then -(magnitude : Int) else magnitude
  if -9223372036854775808 ≤ value ∧ value ≤ 9223372036854775807 then some (.int value) else none

/-- A whole number. -/
def integer? (chars : List Char) : Option (ConfigNode × List Char) :=
  let based (base : Nat) (chars : List Char) : Option (ConfigNode × List Char) := do
    let (digits, rest) ← digits? base chars
    pure (← fitting? false (number base digits), rest)
  match chars with
  | '0' :: 'x' :: rest => based 16 rest
  | '0' :: 'o' :: rest => based 8 rest
  | '0' :: 'b' :: rest => based 2 rest
  | _ => do
    let (negative, unsigned) := sign chars
    let (digits, rest) ← wholeDigits? unsigned
    pure (← fitting? negative (number 10 digits), rest)

/-- An optional exponent. -/
def exponent? : List Char → Option (Option Int × List Char)
  | mark :: rest =>
    if mark = 'e' ∨ mark = 'E' then do
      let (negative, unsigned) := sign rest
      let (digits, rest) ← digits? 10 unsigned
      let magnitude : Int := number 10 digits
      pure (some (if negative then -magnitude else magnitude), rest)
    else some (none, mark :: rest)
  | [] => some (none, [])

/-- An optional fraction. -/
def fraction? : List Char → Option (Option (List Nat) × List Char)
  | '.' :: rest => (digits? 10 rest).map fun (digits, rest) => (some digits, rest)
  | chars => some (none, chars)

/-- A floating-point number with a fraction or an exponent; it must not be too large. -/
def decimal? (chars : List Char) : Option (ConfigNode × List Char) := do
  let (negative, unsigned) := sign chars
  let (whole, rest) ← wholeDigits? unsigned
  let (fraction, rest) ← fraction? rest
  let (exponent, rest) ← exponent? rest
  if fraction.isNone ∧ exponent.isNone then none
  else
    let decimals := fraction.getD []
    let x := Binary64.ofDecimal negative (number 10 (whole ++ decimals))
      (exponent.getD 0 - decimals.length)
    if x = Binary64.infinity false then none else pure (.float x, rest)

/-- The characters after a word. -/
def word? (word : String) (chars : List Char) : Option (List Char) :=
  if word.toList.isPrefixOf chars then some (chars.drop word.length) else none

/-- An infinity or something that is not a number. -/
def special? (chars : List Char) : Option (ConfigNode × List Char) :=
  let (negative, unsigned) := sign chars
  match word? "inf" unsigned, word? "nan" unsigned with
  | some rest, _ => some (.float (Binary64.infinity negative), rest)
  | _, some rest => some (.float Binary64.nan, rest)
  | _, _ => none

/-! ## Dates and times -/

/-- A number of exactly `count` decimal digits within bounds. -/
def fixed? (count least greatest : Nat) (chars : List Char) : Option (Nat × List Char) :=
  let digits := chars.take count
  if digits.length = count ∧ digits.all Char.isDigit then
    let value := number 10 (digits.map fun c => c.toNat - 48)
    if least ≤ value ∧ value ≤ greatest then some (value, chars.drop count) else none
  else none

/-- A mark that must be there. -/
def mark? (mark : Char) : List Char → Option (List Char)
  | c :: rest => if c = mark then some rest else none
  | [] => none

/-- A calendar date. -/
def date? (chars : List Char) : Option (List Char) := do
  let (year, rest) ← fixed? 4 0 9999 chars
  let (month, rest) ← fixed? 2 1 12 (← mark? '-' rest)
  let (_, rest) ← fixed? 2 1 (Calendar.daysInMonth year month) (← mark? '-' rest)
  pure rest

/-- A time of day. -/
def timeOfDay? (chars : List Char) : Option (List Char) := do
  let (_, rest) ← fixed? 2 0 23 chars
  let (_, rest) ← fixed? 2 0 59 (← mark? ':' rest)
  let (_, rest) ← fixed? 2 0 60 (← mark? ':' rest)
  match rest with
  | '.' :: rest => if (rest.head?.any Char.isDigit) then pure (rest.dropWhile Char.isDigit) else none
  | _ => pure rest

/-- An optional offset from universal time. -/
def offset (chars : List Char) : List Char :=
  let hours? (rest : List Char) : Option (List Char) := do
    let (_, rest) ← fixed? 2 0 23 rest
    let (_, rest) ← fixed? 2 0 59 (← mark? ':' rest)
    pure rest
  match chars with
  | 'Z' :: rest => rest
  | 'z' :: rest => rest
  | '+' :: rest => (hours? rest).getD chars
  | '-' :: rest => (hours? rest).getD chars
  | _ => chars

/-- A date, a time of day, or both. -/
def time? (chars : List Char) : Option (ConfigNode × List Char) :=
  match date? chars with
  | some rest =>
    let timed := match rest with
      | c :: after =>
        if c = 'T' ∨ c = 't' ∨ c = ' ' then (timeOfDay? after).map offset else none
      | [] => none
    some (.time, timed.getD rest)
  | none => (timeOfDay? chars).map fun rest => (.time, rest)

/-! ## All of them -/

/-- The first reading that there is. -/
def scalar? (chars : List Char) : Option (ConfigNode × List Char) :=
  match chars with
  | '"' :: _ => (string? chars).map fun (text, rest) => (.string (String.ofList text), rest)
  | '\'' :: _ => (string? chars).map fun (text, rest) => (.string (String.ofList text), rest)
  | 't' :: _ => (word? "true" chars).map fun rest => (.bool true, rest)
  | 'f' :: _ => (word? "false" chars).map fun rest => (.bool false, rest)
  | _ => ((time? chars).or (decimal? chars)).or ((special? chars).or (integer? chars))

end Clearing.Toml
