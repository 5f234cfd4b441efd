import Timetable.Text.Blank
import Timetable.Text.Case

/-!
# Clock times

A minute of the day is written on a twelve-hour clock, as in `9:30 AM`. Reading allows blanks
around each part, one or two digits for the hour, either case for the suffix, and a whole hour
without minutes.
-/

namespace Timetable.Clock

open Text

/-- The number of minutes in a day. -/
def minutesPerDay : Nat := 24 * 60

/-- The half of the day: `AM` before noon, `PM` from noon on. -/
inductive Half where
  | morning | evening
  deriving DecidableEq, Repr

/-- The minute of the day that a clock shows. At twelve the hour hand starts over. -/
def minuteOf (hour minute : Nat) : Half → Nat
  | .morning => hour % 12 * 60 + minute
  | .evening => (hour % 12 + 12) * 60 + minute

/-- Splits off the digits at the start of a text and gives the number that they write. -/
def takeDigits (s : List Char) : List Nat × List Char :=
  ((s.takeWhile (digit? · |>.isSome)).filterMap digit?, s.dropWhile (digit? · |>.isSome))

/-- Reads the suffix `AM` or `PM` after any blanks, and nothing but blanks behind it. -/
def readHalf (s : List Char) : Option Half :=
  match s.dropWhile isBlank with
  | a :: m :: rest =>
    if m.toUpper = 'M' ∧ rest.all isBlank then
      if a.toUpper = 'A' then some .morning
      else if a.toUpper = 'P' then some .evening
      else none
    else none
  | _ => none

/-- Reads the minutes behind a colon: exactly two digits. Without a colon there are none. -/
def readMinutes : List Char → Option (Nat × List Char)
  | ':' :: rest =>
    match takeDigits rest with
    | ([a, b], rest) => some (ofDigits 10 [a, b], rest)
    | _ => none
  | rest => some (0, rest)

/-- Reads one clock time as a minute of the day. -/
def read (s : List Char) : Option Nat := do
  let (digits, rest) := takeDigits (s.dropWhile isBlank)
  if digits.length = 0 ∨ 2 < digits.length then none
  let hour := ofDigits 10 digits
  let (minute, rest) ← readMinutes rest
  let half ← readHalf rest
  if 1 ≤ hour ∧ hour ≤ 12 ∧ minute < 60 then some (minuteOf hour minute half) else none

/-- A number with at least two digits. -/
def twoDigits (n : Nat) : String :=
  if n < 10 then "0" ++ toString n else toString n

/-- The twelve-hour form of a minute. Minutes past the end of a day start over at midnight. -/
def write (minute : Nat) : String :=
  let hour := minute / 60 % 24
  let shown := if hour % 12 = 0 then 12 else hour % 12
  toString shown ++ ":" ++ twoDigits (minute % 60) ++ (if hour < 12 then " AM" else " PM")

end Timetable.Clock
