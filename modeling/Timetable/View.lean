import Timetable.Json.Value
import Timetable.Planner.Basic

/-!
# The plan as it is shown

A view lists the courses of a plan with their type groups and sections, the clashes, and the
estimates for demand. The grid lists the selected sections that have a meeting by their start.
-/

namespace Timetable

/-- A section as it is shown. -/
structure SectionView where
  id : Int
  code : String
  days : String
  times : String
  meeting : Option Meeting
  faculty : Option String
  room : Option String
  capacity : Option Nat
  selectedCount : Nat
  enrolled : Nat
  isSelected : Bool
  isClashing : Bool
  ratio : Float
  band : DemandBand
  probability : Float

/-- A type group as it is shown. -/
structure GroupView where
  typeKey : String
  selectedId : Option Int
  /-- Whether a selection change of the group is on its way. -/
  mutating : Bool
  sections : List SectionView

/-- A course as it is shown. -/
structure CourseView where
  id : Int
  code : String
  term : String
  title : Option String
  groups : List GroupView

/-- A plan as it is shown. -/
structure PlanView where
  phase : Phase
  term : Option String
  active : Option Int
  hasConflict : Bool
  clashes : List Clash
  probability : Float
  selectedCount : Nat
  courses : List CourseView

/-- What a view shows besides the plan and its clashes. -/
structure ViewContext where
  phase : Phase
  active : Option Int
  isMutating : Int → String → Bool

/-- A section as it is shown. -/
def SectionView.of (report : ConflictReport) (s : Section) : SectionView where
  id := s.id
  code := s.code
  days := s.days
  times := s.times
  meeting := s.meeting
  faculty := s.faculty
  room := s.room
  capacity := s.capacity
  selectedCount := s.selectedCount
  enrolled := s.enrolled
  isSelected := s.selected
  isClashing := report.isClashing s.id
  ratio := Demand.ratio s
  band := Demand.band Float s
  probability := Demand.probability s

/-- A type group as it is shown. -/
def GroupView.of (report : ConflictReport) (mutating : String → Bool)
    (group : String × List Section) : GroupView where
  typeKey := group.1
  selectedId := (group.2.find? (·.selected)).map (·.id)
  mutating := mutating group.1
  sections := group.2.map (SectionView.of report)

/-- A course as it is shown. -/
def CourseView.of (report : ConflictReport) (context : ViewContext) (c : Course) :
    CourseView where
  id := c.id
  code := c.code
  term := c.term
  title := c.title
  groups := c.typeGroups.map (GroupView.of report (context.isMutating c.id))

/-- A plan as it is shown. -/
def PlanView.of (p : Plan) (report : ConflictReport) (context : ViewContext) : PlanView where
  phase := context.phase
  term := p.term
  active := context.active
  hasConflict := report.hasConflict
  clashes := report.clashes
  probability := Demand.scheduleProbability (p.selection.map (·.chosen))
  selectedCount := p.selection.length
  courses := p.courses.map (CourseView.of report context)

/-- The held plan as it is shown. -/
def Planner.view (p : Planner) : PlanView :=
  .of p.plan p.conflicts ⟨p.phase, p.active, p.isMutating⟩

/-! ## The view as JSON -/

open Json.Value in
/-- A section in an answer. -/
def SectionView.toJson (s : SectionView) : Json.Value :=
  object
    [("id", integer s.id),
     ("code", text s.code),
     ("days", text s.days),
     ("times", text s.times),
     ("startMinute", ofOption (integer ∘ Int.ofNat ∘ Meeting.start) s.meeting),
     ("endMinute", ofOption (integer ∘ Int.ofNat ∘ Meeting.stop) s.meeting),
     ("meets", ofOption (text ∘ Meeting.write) s.meeting),
     ("faculty", ofOption text s.faculty),
     ("room", ofOption text s.room),
     ("capacity", ofOption (integer ∘ Int.ofNat) s.capacity),
     ("selectedCount", integer s.selectedCount),
     ("enrollmentSnapshot", integer s.enrolled),
     ("isSelected", flag s.isSelected),
     ("isClashing", flag s.isClashing),
     ("demandRatio", real s.ratio),
     ("demandBand", text s.band.name),
     ("demandLabel", text s.band.label),
     ("demandColor", text s.band.color),
     ("probability", real s.probability),
     ("probabilityLabel", text (Demand.percent s.probability))]

open Json.Value in
/-- A type group in an answer. -/
def GroupView.toJson (g : GroupView) : Json.Value :=
  object
    [("typeKey", text g.typeKey),
     ("selectedSectionId", ofOption integer g.selectedId),
     ("mutating", flag g.mutating),
     ("sections", list (g.sections.map SectionView.toJson))]

open Json.Value in
/-- A course in an answer. -/
def CourseView.toJson (c : CourseView) : Json.Value :=
  object
    [("id", integer c.id),
     ("code", text c.code),
     ("term", text c.term),
     ("title", ofOption text c.title),
     ("groups", list (c.groups.map GroupView.toJson))]

open Json.Value in
/-- A clash in an answer. -/
def Clash.toJson (c : Clash) : Json.Value :=
  object [("day", text c.day.name), ("first", integer c.first), ("second", integer c.second)]

open Json.Value in
/-- A plan in an answer. -/
def PlanView.toJson (v : PlanView) : Json.Value :=
  object
    [("state", text v.phase.name),
     ("term", ofOption text v.term),
     ("activeCourseId", ofOption integer v.active),
     ("hasConflict", flag v.hasConflict),
     ("clashes", list (v.clashes.map Clash.toJson)),
     ("scheduleProbability", real v.probability),
     ("scheduleProbabilityLabel", text (Demand.percent v.probability)),
     ("selectedCount", integer v.selectedCount),
     ("courses", list (v.courses.map CourseView.toJson))]

/-! ## The weekly grid -/

/-- One row of the weekly grid. -/
structure GridEntry where
  courseCode : String
  sectionCode : String
  days : String
  start : String
  stop : String
  clashing : Bool
  deriving DecidableEq, Repr

/-- The row of a selected section with its meeting. -/
def GridEntry.of (report : ConflictReport) (e : SelectedSection) (m : Meeting) : GridEntry where
  courseCode := e.course.code
  sectionCode := e.chosen.code
  days := m.days.pattern
  start := Clock.write m.start
  stop := Clock.write m.stop
  clashing := report.isClashing e.chosen.id

/-- The selected sections that have a meeting, with it. -/
def Plan.placed (p : Plan) : List (SelectedSection × Meeting) :=
  p.selection.filterMap fun e => e.chosen.meeting.map (e, ·)

/-- The selected sections that have a meeting, those that start earlier first. Sections that start
together stay in plan order. -/
def Plan.grid (p : Plan) (report : ConflictReport) : List GridEntry :=
  (p.placed.mergeSort fun a b => a.2.start ≤ b.2.start).map fun (e, m) => GridEntry.of report e m

end Timetable
