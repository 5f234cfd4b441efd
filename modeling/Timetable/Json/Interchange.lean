import Timetable.Json.Decode
import Timetable.Record

/-!
# The interchange format

How the records of a plan are read from JSON. A draft holds the fields that have been read so far;
fields that have a default may be left out.
-/

namespace Timetable.Json

/-- Reads an id. -/
def anId : Reader Int := integer minId maxId "i64"

/-- Reads a counter. -/
def aCount : Reader Int := integer minCount maxCount "i32"

/-! ## Sections -/

/-- The fields of a section record that have been read. -/
structure SectionDraft where
  id : Option Int := none
  courseId : Option Int := none
  code : Option String := none
  days : Option String := none
  times : Option String := none
  capacity : Option (Option Int) := none
  selectedCount : Option (Option Int) := none
  enrolled : Option (Option Int) := none
  faculty : Option (Option String) := none
  room : Option (Option String) := none
  selected : Option Bool := none

/-- The record of a draft that holds the required fields. -/
def SectionDraft.finish (d : SectionDraft) : Option SectionRecord := do
  some
    { id := ← d.id
      courseId := ← d.courseId
      code := ← d.code
      days := d.days.getD ""
      times := d.times.getD ""
      capacity := d.capacity.getD none
      selectedCount := d.selectedCount.getD none
      enrolled := d.enrolled.getD none
      faculty := d.faculty.getD none
      room := d.room.getD none
      selected := d.selected.getD false }

/-- The layout of a section record. -/
def sectionLayout : Layout SectionDraft SectionRecord where
  title := "RawSection"
  fields :=
    [.of "id" true (·.id) (fun x d => { d with id := some x }) anId,
     .of "course_id" true (·.courseId) (fun x d => { d with courseId := some x }) anId,
     .of "section_code" true (·.code) (fun x d => { d with code := some x }) text,
     .of "days" false (·.days) (fun x d => { d with days := some x }) text,
     .of "times" false (·.times) (fun x d => { d with times := some x }) text,
     .of "capacity" false (·.capacity) (fun x d => { d with capacity := some x })
      (nullable aCount),
     .of "selected_count" false (·.selectedCount) (fun x d => { d with selectedCount := some x })
      (nullable aCount),
     .of "enrollment_snapshot" false (·.enrolled) (fun x d => { d with enrolled := some x })
      (nullable aCount),
     .of "faculty" false (·.faculty) (fun x d => { d with faculty := some x }) (nullable text),
     .of "room" false (·.room) (fun x d => { d with room := some x }) (nullable text),
     .of "is_selected" false (·.selected) (fun x d => { d with selected := some x }) flag]
  blank := {}
  finish := SectionDraft.finish

/-! ## Courses -/

/-- The fields of a course record that have been read. -/
structure CourseDraft where
  id : Option Int := none
  code : Option String := none
  term : Option String := none
  title : Option (Option String) := none
  sections : Option (List SectionRecord) := none

/-- The record of a draft that holds the required fields. -/
def CourseDraft.finish (d : CourseDraft) : Option CourseRecord := do
  some
    { id := ← d.id
      code := ← d.code
      term := ← d.term
      title := d.title.getD none
      sections := d.sections.getD [] }

/-- The layout of a course record. -/
def courseLayout : Layout CourseDraft CourseRecord where
  title := "RawCourse"
  fields :=
    [.of "id" true (·.id) (fun x d => { d with id := some x }) anId,
     .of "code" true (·.code) (fun x d => { d with code := some x }) text,
     .of "term" true (·.term) (fun x d => { d with term := some x }) text,
     .of "title" false (·.title) (fun x d => { d with title := some x }) (nullable text),
     .of "sections" false (·.sections) (fun x d => { d with sections := some x })
      (list sectionLayout.read)]
  blank := {}
  finish := CourseDraft.finish

/-! ## Plans -/

/-- The fields of a plan record that have been read. -/
structure PlanDraft where
  term : Option (Option String) := none
  courses : Option (List CourseRecord) := none

/-- The layout of a plan record. -/
def planLayout : Layout PlanDraft PlanRecord where
  title := "RawPlan"
  fields :=
    [.of "term" false (·.term) (fun x d => { d with term := some x }) (nullable text),
     .of "courses" false (·.courses) (fun x d => { d with courses := some x })
      (list courseLayout.read)]
  blank := {}
  finish d := some { term := d.term.getD none, courses := d.courses.getD [] }

end Timetable.Json
