import Timetable.Conflict
import Timetable.Course

/-!
# Plans

A plan holds the courses of the working term, each id once, in the order in which they were added.
`Plan.ofRecord` makes a plan of any record: a course that appears again replaces the earlier one in
its place.
-/

namespace Timetable

/-- The courses of the working term, with pairwise distinct ids. -/
structure Plan where
  term : Option String
  courses : List Course
  distinct : (courses.map Course.id).Nodup
  deriving DecidableEq

/-- A selected section with the course that it belongs to. -/
structure SelectedSection where
  course : Course
  chosen : Section
  deriving DecidableEq

namespace Plan

/-- The plan without courses. -/
def empty : Plan := ⟨none, [], .nil⟩

instance : Inhabited Plan := ⟨empty⟩

/-- Puts a course into a list: in the place of the course with its id, else at the end. -/
def putCourse (c : Course) : List Course → List Course
  | [] => [c]
  | x :: rest => if x.id = c.id then c :: rest else x :: putCourse c rest

theorem mem_map_putCourse {c : Course} {id : Int} :
    ∀ {courses : List Course},
      id ∈ (putCourse c courses).map Course.id ↔ id = c.id ∨ id ∈ courses.map Course.id
  | [] => by simp [putCourse]
  | x :: rest => by
    unfold putCourse
    split
    · next same => simp [same]
    · rw [List.map_cons, List.mem_cons, mem_map_putCourse, List.map_cons, List.mem_cons]
      constructor
      · rintro (h | h | h) <;> simp [h]
      · rintro (h | h | h) <;> simp [h]

theorem nodup_map_putCourse (c : Course) :
    ∀ {courses : List Course}, (courses.map Course.id).Nodup →
      ((putCourse c courses).map Course.id).Nodup
  | [], _ => by simp [putCourse]
  | x :: rest, h => by
    rw [List.map_cons, List.nodup_cons] at h
    unfold putCourse
    split
    · next same =>
      rw [List.map_cons, List.nodup_cons]
      exact ⟨same ▸ h.1, h.2⟩
    · next other =>
      rw [List.map_cons, List.nodup_cons]
      refine ⟨fun mem => ?_, nodup_map_putCourse c h.2⟩
      rcases mem_map_putCourse.1 mem with same | mem
      · exact other same
      · exact h.1 mem

theorem nodup_foldl_putCourse :
    ∀ (added courses : List Course), (courses.map Course.id).Nodup →
      ((added.foldl (fun held c => putCourse c held) courses).map Course.id).Nodup
  | [], _, h => h
  | c :: rest, courses, h =>
    nodup_foldl_putCourse rest (putCourse c courses) (nodup_map_putCourse c h)

/-- The plan that a record describes. -/
def ofRecord (r : PlanRecord) : Plan where
  term := r.term
  courses := (r.courses.map Course.ofRecord).foldl (fun held c => putCourse c held) []
  distinct := nodup_foldl_putCourse _ _ .nil

/-- The record of a plan. -/
def toRecord (p : Plan) : PlanRecord where
  term := p.term
  courses := p.courses.map Course.toRecord

/-- The course with this id. -/
def course? (p : Plan) (id : Int) : Option Course := p.courses.find? (·.id = id)

/-- Whether some course has this id. -/
def hasCourse (p : Plan) (id : Int) : Bool := p.courses.any (·.id = id)

/-- Whether there are no courses. -/
def isEmpty (p : Plan) : Bool := p.courses.isEmpty

/-- The selected sections, course by course. -/
def selection (p : Plan) : List SelectedSection :=
  p.courses.flatMap fun c => c.selected.map fun s => ⟨c, s⟩

/-- The ids of the selected sections. -/
def selectedIds (p : Plan) : IdSet := .ofList (p.selection.map (·.chosen.id))

/-- The first section with this id, whatever course it is in. -/
def section? (p : Plan) (id : Int) : Option SelectedSection :=
  p.courses.findSome? fun c => (c.section? id).map fun s => ⟨c, s⟩

/-- The meetings of the selected sections that have one. -/
def meetings (p : Plan) : List (Int × Meeting) :=
  p.selection.filterMap fun e => e.chosen.meeting.map fun m => (e.chosen.id, m)

/-- The clashes among the selected sections. -/
def conflicts (p : Plan) : ConflictReport := Conflict.detect p.meetings

end Plan

end Timetable
