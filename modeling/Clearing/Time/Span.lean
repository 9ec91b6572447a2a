/-!
# Spans of time

A span counts nanoseconds.  Waits, deadlines and ages are spans of whole
milliseconds; only a backoff can have a fraction of one.
-/

namespace Clearing

/-- A length of time in nanoseconds. -/
structure Span where
  nanos : Nat
  deriving DecidableEq, Repr

namespace Span

/-- No time at all. -/
def zero : Span := ⟨0⟩

/-- A whole number of milliseconds. -/
def ofMillis (millis : Nat) : Span := ⟨millis * 1000000⟩

/-- The first whole millisecond that is not before the end of the span. -/
def toMillisUp (span : Span) : Nat :=
  (span.nanos + 999999) / 1000000

@[simp] theorem toMillisUp_ofMillis (millis : Nat) : (ofMillis millis).toMillisUp = millis := by
  simp only [toMillisUp, ofMillis]
  omega

/-- The shorter of two spans. -/
def min (a b : Span) : Span :=
  if a.nanos ≤ b.nanos then a else b

/-- A whole part and a fraction of `places` digits, without trailing zeros. -/
def fractionText (amount unit places : Nat) : List Char :=
  let digits := Nat.toDigits 10 (amount % unit)
  let padded := List.replicate (places - digits.length) '0' ++ digits
  let significant := (padded.reverse.dropWhile (· = '0')).reverse
  Nat.toDigits 10 (amount / unit) ++ if significant.isEmpty then [] else '.' :: significant

/-- The span in the largest unit that gives a whole part: seconds, milliseconds, microseconds or
nanoseconds. -/
def text (span : Span) : String :=
  if 1000000000 ≤ span.nanos then
    String.ofList (fractionText span.nanos 1000000000 9 ++ ['s'])
  else if 1000000 ≤ span.nanos then
    String.ofList (fractionText span.nanos 1000000 6 ++ ['m', 's'])
  else if 1000 ≤ span.nanos then
    String.ofList (fractionText span.nanos 1000 3 ++ ['µ', 's'])
  else String.ofList (Nat.toDigits 10 span.nanos ++ ['n', 's'])

example : (ofMillis 1500).text = "1.5s" ∧ (ofMillis 100).text = "100ms" ∧
    (⟨1500⟩ : Span).text = "1.5µs" ∧ zero.text = "0ns" ∧ (⟨1000000001⟩ : Span).text = "1.000000001s" := by
  decide +kernel

end Span

end Clearing
