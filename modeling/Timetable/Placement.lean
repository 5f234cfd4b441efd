import Timetable.Demand
import Timetable.Plan

/-!
# Building a plan without clashes

Courses are placed one at a time in plan order. A course needs one section of each kind; the kinds
are filled in order of first appearance, trying the sections that are most likely to be obtained
first. A course whose kinds cannot all be filled beside what is already placed stays unselected and
is reported.
-/

namespace Timetable

/-- A plan that was built: the sections to select, and the courses with and without a place. -/
structure Schedule where
  selected : IdSet
  placed : List String
  unplaced : List String
  deriving DecidableEq

namespace Schedule

/-- The schedule of no courses. -/
def empty : Schedule := ⟨.empty, [], []⟩

/-- The summary of a schedule. -/
def message (s : Schedule) : String :=
  let total := toString (s.placed.length + s.unplaced.length)
  if s.unplaced.isEmpty then "Placed all " ++ total ++ " courses without conflicts"
  else
    "Placed " ++ toString s.placed.length ++ " of " ++ total ++ " courses; could not fit "
      ++ ", ".intercalate s.unplaced

end Schedule

namespace Placement

/-- Whether a section overlaps none of the meetings. A section without a meeting always fits. -/
def fits (taken : List Meeting) (s : Section) : Bool :=
  match s.meeting with
  | none => true
  | some m => taken.all fun t => !t.overlaps m

/-- The meetings after a section has been placed. -/
def take (taken : List Meeting) (s : Section) : List Meeting :=
  match s.meeting with
  | none => taken
  | some m => taken ++ [m]

/-- What the search works on: the sections chosen so far and the meetings that are taken, as two
stacks with the newest last. A section without a meeting is on the first one only. -/
structure Stacks where
  chosen : List Section
  taken : List Meeting

/-- Chooses a section. -/
def Stacks.push (st : Stacks) (s : Section) : Stacks where
  chosen := st.chosen ++ [s]
  taken := take st.taken s

/-- Gives up the section that was chosen last. -/
def Stacks.pop (st : Stacks) (s : Section) : Stacks where
  chosen := st.chosen.dropLast
  taken := if s.meeting.isSome then st.taken.dropLast else st.taken

/-- Goes through the sections of a group. One that fits is chosen, and given up again when `deeper`,
the search of the other groups, fails behind it. -/
def tryEach (deeper : Stacks → Bool × Stacks) : List Section → Stacks → Bool × Stacks
  | [], st => (false, st)
  | s :: others, st =>
    if fits st.taken s then
      match deeper (st.push s) with
      | (true, st) => (true, st)
      | (false, st) => tryEach deeper others (st.pop s)
    else tryEach deeper others st

/-- Chooses one section from each group, in the order of the groups, and says whether it could. -/
def search : List (List Section) → Stacks → Bool × Stacks
  | [], st => (true, st)
  | group :: rest, st => tryEach (search rest) group st

/-- The sections of a group, those with the greater probability first. -/
def rank (group : List Section) : List Section :=
  group.mergeSort fun a b =>
    decide (Demand.orderKey (Demand.probability b) ≤ Demand.orderKey (Demand.probability a))

/-- The preferred choice of one section of each kind of a course beside the meetings of `taken`. -/
def placeCourse (c : Course) (taken : List Meeting) : Option (List Section) :=
  match search (c.typeGroups.map fun (_, group) => rank group) ⟨[], taken⟩ with
  | (true, st) => some st.chosen
  | (false, _) => none

/-- Places one more course. -/
def placeNext (built : Schedule × List Meeting) (c : Course) : Schedule × List Meeting :=
  let (schedule, taken) := built
  match placeCourse c taken with
  | some chosen =>
    ({ schedule with
        selected := (chosen.map (·.id)).foldl .insert schedule.selected
        placed := schedule.placed ++ [c.code] },
      taken ++ chosen.filterMap (·.meeting))
  | none => ({ schedule with unplaced := schedule.unplaced ++ [c.code] }, taken)

/-- Places all courses of a plan, whatever is selected in it. -/
def build (p : Plan) : Schedule := (p.courses.foldl placeNext (.empty, [])).1

end Placement

end Timetable
