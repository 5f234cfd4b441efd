/-!
# Durations

A span of time in nanoseconds, written in the largest unit that it fills, with two decimals.
-/

namespace Timetable

namespace Decimal

/-- The quotient rounded to the nearest natural number; a half goes to the even neighbour. -/
def roundHalfEven (num den : Nat) : Nat :=
  let whole := num / den
  let rest := num % den
  if 2 * rest < den then whole
  else if den < 2 * rest then whole + 1
  else whole + whole % 2

end Decimal

/-- A span of time. -/
structure Duration where
  nanoseconds : Nat
  deriving DecidableEq, Repr

namespace Duration

/-- A number of whole seconds. -/
def ofSeconds (seconds : Nat) : Duration := ⟨seconds * 1000000000⟩

/-- A number of whole milliseconds. -/
def ofMilliseconds (milliseconds : Nat) : Duration := ⟨milliseconds * 1000000⟩

/-- A unit of time with its symbol. -/
structure Scale where
  nanoseconds : Nat
  symbol : String
  deriving DecidableEq, Repr

/-- The largest unit that a span fills. It is chosen before rounding. -/
def scale (d : Duration) : Scale :=
  if 1000000000 ≤ d.nanoseconds then ⟨1000000000, "s"⟩
  else if 1000000 ≤ d.nanoseconds then ⟨1000000, "ms"⟩
  else if 1000 ≤ d.nanoseconds then ⟨1000, "µs"⟩
  else ⟨1, "ns"⟩

/-- The digits of a number of hundredths below one. -/
def hundredths (n : Nat) : String := if n < 10 then "0" ++ toString n else toString n

/-- The text of a span, as in `1.94ms`. -/
def text (d : Duration) : String :=
  let rounded := Decimal.roundHalfEven (100 * d.nanoseconds) d.scale.nanoseconds
  toString (rounded / 100) ++ "." ++ hundredths (rounded % 100) ++ d.scale.symbol

end Duration

end Timetable
