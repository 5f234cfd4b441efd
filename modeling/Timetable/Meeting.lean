import Timetable.Clock
import Timetable.Week

/-!
# Weekly meetings

A meeting is a window of the day, from its start up to but not including its end, repeated on every
day of a set. It is read from the two texts of a record: a day pattern and a time range.
-/

namespace Timetable

/-- A non-empty window of the day, repeated on the days of a set. -/
structure Meeting where
  days : DaySet
  start : Nat
  stop : Nat
  start_lt_stop : start < stop
  stop_le : stop ≤ Clock.minutesPerDay
  deriving DecidableEq

namespace Meeting

/-- The meeting with these bounds, if they form a non-empty window of one day. -/
def of? (days : DaySet) (start stop : Nat) : Option Meeting :=
  if h : start < stop ∧ stop ≤ Clock.minutesPerDay then some ⟨days, start, stop, h.1, h.2⟩
  else none

/-- Reads a time range: two clock times with the first hyphen between them. -/
def readRange (times : String) : Option (Nat × Nat) :=
  let s := times.toList
  match s.dropWhile (· != '-') with
  | [] => none
  | _ :: rest => do
    let start ← Clock.read (s.takeWhile (· != '-'))
    let stop ← Clock.read rest
    some (start, stop)

/-- Reads a meeting. A time range that cannot be read, or is empty, gives none; a day pattern
without any day gives a meeting that never takes place. -/
def read (days times : String) : Option Meeting := do
  let (start, stop) ← readRange times
  of? (.ofPattern days) start stop

/-- The length of the window in minutes. -/
def duration (m : Meeting) : Nat := m.stop - m.start

/-- Whether the windows share a minute, whatever the days. -/
def sharesTime (m n : Meeting) : Bool := m.start < n.stop && n.start < m.stop

/-- Whether the two meetings take place at the same time on some day. Meetings back to back do
not. -/
def overlaps (m n : Meeting) : Bool := m.days.meets n.days && m.sharesTime n

/-- The written form: day pattern, then the bounds of the window. -/
def write (m : Meeting) : String :=
  m.days.pattern ++ " " ++ Clock.write m.start ++ " - " ++ Clock.write m.stop

end Meeting

end Timetable
