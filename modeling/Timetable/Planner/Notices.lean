import Timetable.Duration
import Timetable.Journal.Entry
import Timetable.Planner.Basic

/-!
# What the planner reports

A record that is not as it should be is repaired when it is taken in, and every repair is reported.
So is the fate of every answer of the store.
-/

namespace Timetable

open Journal (Entry)

/-! ## Records -/

/-- The part of the program that takes records in. -/
def recordTarget : String := "planner::planner::model"

/-- Reports a counter below zero. -/
def counterNotice (sectionId : Int) (name : String) : Option Int → List Entry
  | some n =>
    if n < 0 then
      [{ level := .warn, target := recordTarget, message := "Negative counter clamped to 0"
         fields := [("section_id", .number sectionId), ("field", .quoted name),
          ("value", .number n)] }]
    else []
  | none => []

/-- What is reported of a section of the course with id `courseId`. -/
def SectionRecord.notices (courseId : Int) (r : SectionRecord) : List Entry :=
  let foreign : List Entry :=
    if r.courseId = courseId then []
    else
      [{ level := .debug, target := recordTarget
         message := "Section course_id disagrees with its parent; using the parent"
         fields := [("section_id", .number r.id), ("claimed_course", .number r.courseId),
          ("course_id", .number courseId)] }]
  let unplaceable : List Entry :=
    if (Meeting.read r.days r.times).isSome then []
    else
      [{ level := .debug, target := recordTarget
         message := "Section has no placeable meeting time"
         fields := [("section_id", .number r.id), ("times", .shown r.times)] }]
  foreign ++ unplaceable ++ counterNotice r.id "selected_count" r.selectedCount
    ++ counterNotice r.id "enrollment_snapshot" r.enrolled

/-- Reports every selected section whose kind is in `seen` or that of an earlier selected one. -/
def repeatNotices (courseId : Int) (seen : List String) : List SectionRecord → List Entry
  | [] => []
  | r :: rest =>
    let key := typeKey r.code
    if r.selected then
      if key ∈ seen then
        { level := .warn, target := recordTarget
          message := "Duplicate selection in type-group, deselecting"
          fields := [("course_id", .number courseId), ("section_id", .number r.id),
            ("type_key", .shown key)] } :: repeatNotices courseId seen rest
      else repeatNotices courseId (key :: seen) rest
    else repeatNotices courseId seen rest

/-- What is reported of a course. -/
def CourseRecord.notices (r : CourseRecord) : List Entry :=
  r.sections.flatMap (SectionRecord.notices r.id) ++ repeatNotices r.id [] r.sections

/-- What is reported of courses; `seen` holds the ids of the earlier ones. -/
def courseNotices (seen : List Int) : List CourseRecord → List Entry
  | [] => []
  | r :: rest =>
    let again : List Entry :=
      if r.id ∈ seen then
        [{ level := .warn, target := recordTarget
           message := "Duplicate course in plan, keeping the last"
           fields := [("course_id", .number r.id)] }]
      else []
    r.notices ++ again ++ courseNotices (r.id :: seen) rest

/-- What is reported of a plan. -/
def PlanRecord.notices (r : PlanRecord) : List Entry := courseNotices [] r.courses

/-! ## Answers -/

/-- A key as it is reported. -/
def RequestKey.text : RequestKey → String
  | plan => "Plan"
  | course id => "Course(" ++ toString id ++ ")"
  | selection id key => "Selection(" ++ toString id ++ ", " ++ Text.quote key ++ ")"

/-- The part of the program that takes answers. -/
def planTarget : String := "planner::planner::orchestrator"

/-- What is reported of the answer to a ticket; `after` is the planner that has taken it. -/
def Planner.answerNotices (before : Planner) (ticket : Ticket)
    (reply : Except Store.Error PlanRecord) (after : Planner) : List Entry :=
  let request := [("key", Journal.Content.shown ticket.key.text), ("seq", .number ticket.seq)]
  match reply with
  | .error e =>
    [{ level := .warn, target := planTarget, message := "Planner store request failed"
       fields := ("error", .shown e.message) :: request }]
  | .ok r =>
    if !before.isLatest ticket then
      [{ level := .debug, target := planTarget, message := "Discarding superseded response"
         fields := request }]
    else if ticket.seq ≤ before.appliedSeq then
      [{ level := .debug, target := planTarget
         message := "Discarding response older than the held plan"
         fields := request ++ [("applied", .number before.appliedSeq)] }]
    else
      r.notices ++
        [{ level := .info, target := planTarget, message := "Plan updated"
           fields := [("seq", .number ticket.seq), ("courses", .number after.plan.courses.length),
            ("selected", .number after.plan.selectedIds.size),
            ("has_conflict", .flag after.conflicts.hasConflict)] }]

/-! ## Slow calls -/

/-- Reports a call that took longer than it should. -/
def slowCallNotice (elapsed threshold : Duration) (label : String) : Option Entry :=
  if threshold.nanoseconds < elapsed.nanoseconds then
    some
      { level := .warn, target := "planner::utils", message := "slow store call: " ++ label
        fields := [("duration", .quoted elapsed.text)] }
  else none

end Timetable
