import Timetable.IdSet
import Timetable.Meeting

/-!
# Clashes between meetings

Two sections clash on a day when both meet on it and their windows share a minute. Clashes are
advice: they are reported and never keep a section from being selected.
-/

namespace Timetable

/-- Two sections that meet at the same time on a day, in the order in which they were given. -/
structure Clash where
  day : Day
  first : Int
  second : Int
  deriving DecidableEq, Repr

/-- What was found among the meetings of a selection. -/
structure ConflictReport where
  /-- Whether anything clashes. -/
  hasConflict : Bool
  /-- The ids that occur in some clash. -/
  clashing : IdSet
  /-- Each pair that clashes, once for every day on which it does. -/
  clashes : List Clash
  deriving DecidableEq

namespace ConflictReport

/-- The report without clashes. -/
def none : ConflictReport := ⟨false, .empty, []⟩

/-- Whether an id occurs in some clash. -/
def isClashing (r : ConflictReport) (id : Int) : Bool := id ∈ r.clashing

theorem isClashing_iff {r : ConflictReport} {id : Int} :
    r.isClashing id = true ↔ id ∈ r.clashing := decide_eq_true_iff

/-- The report with one more clash and both of its ids. -/
def add (r : ConflictReport) (clash : Clash) : ConflictReport :=
  { r with
    clashing := (r.clashing.insert clash.first).insert clash.second
    clashes := r.clashes ++ [clash] }

end ConflictReport

namespace Conflict

/-- Compares two meetings of a day, and reports them when they share time. -/
def record (day : Day) (a : Int × Meeting) (r : ConflictReport) (b : Int × Meeting) :
    ConflictReport :=
  if a.2.sharesTime b.2 then r.add ⟨day, a.1, b.1⟩ else r

/-- Compares each meeting of a day with all that come behind it. -/
def scan (day : Day) (r : ConflictReport) : List (Int × Meeting) → ConflictReport
  | [] => r
  | a :: rest => scan day (rest.foldl (record day a) r) rest

/-- All clashes among meetings, Monday first, and on each day in the order of the list. -/
def detect (meetings : List (Int × Meeting)) : ConflictReport :=
  if meetings.length < 2 then .none
  else
    let r := Day.all.foldl (fun r day => scan day r (meetings.filter (·.2.days.has day))) .none
    { r with hasConflict := !r.clashes.isEmpty }

end Conflict

end Timetable
