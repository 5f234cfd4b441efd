/-!
# Interchange records

Plans travel between the planner and its store as records. A record is taken as it comes: counters
may be missing or negative, ids may repeat, and several sections of one kind may be selected.
`Plan.ofRecord` makes a plan of it. Ids are integers of 64 bits and counters of 32 bits.
-/

namespace Timetable

/-- One meeting offering as it travels. -/
structure SectionRecord where
  id : Int
  courseId : Int
  code : String
  days : String := ""
  times : String := ""
  capacity : Option Int := none
  selectedCount : Option Int := none
  enrolled : Option Int := none
  faculty : Option String := none
  room : Option String := none
  selected : Bool := false
  deriving DecidableEq, Repr

/-- One course with its sections as it travels. -/
structure CourseRecord where
  id : Int
  code : String
  term : String
  title : Option String := none
  sections : List SectionRecord := []
  deriving DecidableEq, Repr

/-- A plan as it travels. -/
structure PlanRecord where
  term : Option String := none
  courses : List CourseRecord := []
  deriving DecidableEq, Repr, Inhabited

/-- The greatest value of a counter. -/
def maxCount : Int := 2147483647

/-- The least value of a counter. -/
def minCount : Int := -2147483648

/-- The greatest id. -/
def maxId : Int := 9223372036854775807

/-- The least id. -/
def minId : Int := -9223372036854775808

end Timetable
