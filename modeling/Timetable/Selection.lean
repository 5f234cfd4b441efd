import Timetable.Plan

/-!
# Selecting sections

A request replaces the selection of one type group of one course. These functions compute the
selection that is wanted; they leave the plan alone, since the store keeps it.
-/

namespace Timetable

/-- Why a selection request is refused. -/
inductive SelectionError where
  | unknownCourse (courseId : Int)
  | foreignSection (courseId sectionId : Int)
  | typeMismatch (sectionId : Int) (expected actual : String)
  deriving DecidableEq, Repr

/-- The wording of a refusal. -/
def SelectionError.message : SelectionError → String
  | unknownCourse courseId => "course " ++ toString courseId ++ " is not in the plan"
  | foreignSection courseId sectionId =>
    "section " ++ toString sectionId ++ " does not belong to course " ++ toString courseId
  | typeMismatch sectionId expected actual =>
    "section " ++ toString sectionId ++ " has type " ++ actual ++ ", expected " ++ expected

namespace Plan

/-- Checks that a section, if one is asked for, is in the course and of the kind. -/
def checkChoice (c : Course) (key : String) : Option Int → Except SelectionError Unit
  | none => .ok ()
  | some id =>
    match c.section? id with
    | none => .error (.foreignSection c.id id)
    | some s => if s.typeKey = key then .ok () else .error (.typeMismatch id key s.typeKey)

/-- The selection after the sections of one kind of `c` have given way to `choice`. -/
def replaceGroup (p : Plan) (c : Course) (key : String) (choice : Option Int) : IdSet :=
  let replaced := (c.selected.filter (·.typeKey = key)).map (·.id)
  let kept := p.selectedIds.filter fun id => !replaced.contains id
  match choice with
  | none => kept
  | some id => kept.insert id

/-- The selection after a request, or why the request is refused. No choice clears the group. -/
def trySelect (p : Plan) (courseId : Int) (key : String) (choice : Option Int) :
    Except SelectionError IdSet :=
  match p.course? courseId with
  | none => .error (.unknownCourse courseId)
  | some c => (checkChoice c key choice).map fun _ => p.replaceGroup c key choice

/-- The selection after a request; a request that is refused changes nothing. -/
def select (p : Plan) (courseId : Int) (key : String) (choice : Option Int) : IdSet :=
  match p.trySelect courseId key choice with
  | .ok next => next
  | .error _ => p.selectedIds

/-- The ids of a selection that belong to one course, in section order. -/
def courseSelection (p : Plan) (courseId : Int) (selected : IdSet) : List Int :=
  match p.course? courseId with
  | none => []
  | some c => (c.sections.map (·.id)).filter fun id => decide (id ∈ selected)

end Plan

/-- The record of the same plan with exactly the sections of `selected` flagged as selected. -/
def PlanRecord.withSelection (r : PlanRecord) (selected : IdSet) : PlanRecord :=
  { r with courses := r.courses.map fun c =>
      { c with sections := c.sections.map fun s => { s with selected := decide (s.id ∈ selected) } } }

end Timetable
