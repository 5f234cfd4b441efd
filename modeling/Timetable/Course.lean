import Timetable.Section

/-!
# Courses

A course owns its sections and selects at most one of each kind. A record may break this rule;
`Course.ofRecord` then keeps the first selected section of each kind. Main statement:
what is kept has one selected section of each kind at most (`oneOfEachKind_keepFirst`).
-/

namespace Timetable

/-- No two selected sections of the list are of one kind. -/
def OneOfEachKind (sections : List Section) : Prop :=
  sections.Pairwise fun a b => a.selected = true → b.selected = true → a.typeKey ≠ b.typeKey

instance (sections : List Section) : Decidable (OneOfEachKind sections) :=
  inferInstanceAs (Decidable (List.Pairwise _ _))

/-- A course of a plan with its sections, of which at most one of each kind is selected. -/
structure Course where
  id : Int
  code : String
  term : String
  title : Option String
  sections : List Section
  oneOfEachKind : OneOfEachKind sections
  deriving DecidableEq

namespace Course

/-- Deselects every section whose kind is in `seen` or was selected earlier in the list. -/
def keepFirst (seen : List String) : List Section → List Section
  | [] => []
  | s :: rest =>
    if s.selected then
      if s.typeKey ∈ seen then { s with selected := false } :: keepFirst seen rest
      else s :: keepFirst (s.typeKey :: seen) rest
    else s :: keepFirst seen rest

/-- A section that stays selected is of a kind that was not seen before. -/
theorem not_mem_of_mem_keepFirst {s : Section} :
    ∀ {sections : List Section} {seen : List String}, s ∈ keepFirst seen sections →
      s.selected = true → s.typeKey ∉ seen
  | x :: rest, seen, mem, chosen => by
    unfold keepFirst at mem
    split at mem
    · split at mem
      · rcases List.mem_cons.1 mem with rfl | mem
        · cases chosen
        · exact not_mem_of_mem_keepFirst mem chosen
      · next fresh =>
        rcases List.mem_cons.1 mem with rfl | mem
        · exact fresh
        · exact fun h => not_mem_of_mem_keepFirst mem chosen (List.mem_cons_of_mem _ h)
    · next off =>
      rcases List.mem_cons.1 mem with rfl | mem
      · exact absurd chosen off
      · exact not_mem_of_mem_keepFirst mem chosen

theorem oneOfEachKind_keepFirst :
    ∀ (sections : List Section) (seen : List String), OneOfEachKind (keepFirst seen sections)
  | [], _ => .nil
  | x :: rest, seen => by
    unfold keepFirst
    split
    · split
      · exact .cons (fun _ _ on _ => by cases on) (oneOfEachKind_keepFirst rest seen)
      · exact .cons (fun b mem _ on same => not_mem_of_mem_keepFirst mem on (by simp [same]))
          (oneOfEachKind_keepFirst rest _)
    · next off => exact .cons (fun _ _ on _ => absurd on off) (oneOfEachKind_keepFirst rest seen)

/-- The course that a record describes. Of several selected sections of one kind the first stays
selected. -/
def ofRecord (r : CourseRecord) : Course where
  id := r.id
  code := r.code
  term := r.term
  title := r.title
  sections := keepFirst [] (r.sections.map (Section.ofRecord r.id))
  oneOfEachKind := oneOfEachKind_keepFirst _ _

/-- The record of a course. -/
def toRecord (c : Course) : CourseRecord where
  id := c.id
  code := c.code
  term := c.term
  title := c.title
  sections := c.sections.map Section.toRecord

/-- The first section with this id. -/
def section? (c : Course) (id : Int) : Option Section := c.sections.find? (·.id = id)

/-- The selected sections, in section order. -/
def selected (c : Course) : List Section := c.sections.filter (·.selected)

/-- The kinds of the sections, in the order in which they first appear. -/
def typeKeys (c : Course) : List String := (c.sections.map (·.typeKey)).eraseDups

/-- The sections of one kind, in section order. -/
def group (c : Course) (key : String) : List Section := c.sections.filter (·.typeKey = key)

/-- The kinds of the course, each with its sections. -/
def typeGroups (c : Course) : List (String × List Section) :=
  c.typeKeys.map fun key => (key, c.group key)

/-- The selected section of one kind, if there is any. -/
def selectedOfKind (c : Course) (key : String) : Option Section :=
  c.selected.find? (·.typeKey = key)

end Course

end Timetable
