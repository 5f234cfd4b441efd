import Timetable.Placement
import Timetable.Store.Call

/-!
# A store in memory

Holds the courses of every term and a small catalog. It starts from a seed: a plan, and the catalog
courses that can be added to it. Answers are scoped to the term of the last fetch.
-/

namespace Timetable.Store

/-- What a store starts from. -/
structure Seed where
  plan : PlanRecord := {}
  catalog : List CourseRecord := []
  deriving DecidableEq, Repr

/-- A store that keeps its courses in memory. -/
structure Memory where
  /-- The courses of every term. -/
  courses : List CourseRecord
  /-- The courses that can be added, by code. Their ids do not matter. -/
  catalog : List CourseRecord
  /-- The term of the last fetch. -/
  term : Option String
  /-- The greatest id that has been given out. -/
  lastId : Int
  deriving DecidableEq, Repr

namespace Memory

/-- The ids of a course and of its sections. -/
def idsOf (c : CourseRecord) : List Int := c.id :: c.sections.map (·.id)

/-- The store with the courses of a seed. New ids start behind the greatest one of its plan. -/
def ofSeed (seed : Seed) : Memory where
  courses := seed.plan.courses
  catalog := seed.catalog
  term := seed.plan.term
  lastId := (seed.plan.courses.flatMap idsOf).max?.getD 0

/-- Whether a course is in the term that answers are scoped to. -/
def inScope (m : Memory) (c : CourseRecord) : Bool :=
  match m.term with
  | none => true
  | some t => c.term = t

/-- The plan that the store answers with. -/
def snapshot (m : Memory) : PlanRecord := ⟨m.term, m.courses.filter m.inScope⟩

/-- The first course with this id. -/
def course? (m : Memory) (id : Int) : Option CourseRecord := m.courses.find? (·.id = id)

/-- Changes the first course with this id. -/
def updateFirst (id : Int) (change : CourseRecord → CourseRecord) :
    List CourseRecord → List CourseRecord
  | [] => []
  | c :: rest => if c.id = id then change c :: rest else c :: updateFirst id change rest

/-- Changes the first course with this id. -/
def update (m : Memory) (id : Int) (change : CourseRecord → CourseRecord) : Memory :=
  { m with courses := updateFirst id change m.courses }

/-- The catalog course with this code, up to blanks around it and the case of its letters. -/
def catalogEntry? (m : Memory) (code : String) : Option CourseRecord :=
  m.catalog.find? fun c => Text.sameLetters c.code (Text.trim code)

/-- The error of a course that is not in the store. -/
def noCourse (id : Int) : Error := .notFound ("course " ++ toString id)

/-- A section with its flag set to `now`. Its counter goes along, between zero and the greatest
count. -/
def setSelected (s : SectionRecord) (now : Bool) : SectionRecord :=
  let count := s.selectedCount.getD 0
  let counted :=
    if !s.selected && now then some (min (count + 1) maxCount)
    else if s.selected && !now then some (max (count - 1) 0)
    else s.selectedCount
  { s with selectedCount := counted, selected := now }

/-- Fetches the plan; a term that is given becomes the scope of answers. -/
def fetchPlan (m : Memory) (term : Option String) : Memory :=
  match term with
  | none => m
  | some t => { m with term := some t }

/-- Gives the sections of a catalog course ids from `id` on, and makes them sections of the course
`courseId`. -/
def enrol (courseId : Int) : Int → List SectionRecord → List SectionRecord
  | _, [] => []
  | id, s :: rest =>
    { s with id := id, courseId := courseId, selected := false } :: enrol courseId (id + 1) rest

/-- Adds a catalog course to a term. The course and its sections get new ids. -/
def addCourse (m : Memory) (code term : String) : Except Error Memory :=
  match m.catalogEntry? code with
  | none => .error (.notFound ("catalog course " ++ code))
  | some template =>
    if m.courses.any fun c => c.term = term && Text.sameLetters c.code template.code then
      .error (.invalid (template.code ++ " is already in the " ++ term ++ " plan"))
    else
      let courseId := m.lastId + 1
      let added : CourseRecord :=
        { template with
          id := courseId
          term := term
          sections := enrol courseId (courseId + 1) template.sections }
      .ok { m with
        courses := m.courses ++ [added]
        lastId := courseId + template.sections.length }

/-- Removes every course with this id. That there was none is seen afterwards, by the number of
courses that are left. -/
def removeCourse (m : Memory) (id : Int) : Reply .done × Memory :=
  let left := { m with courses := m.courses.filter (·.id ≠ id) }
  if left.courses.length = m.courses.length then (.error (noCourse id), left) else (.ok (), left)

/-- A section with meeting, capacity, enrolment and staff taken from a section of the catalog. -/
def refreshSection (template : CourseRecord) (s : SectionRecord) : SectionRecord :=
  match template.sections.find? (·.code = s.code) with
  | none => s
  | some fresh =>
    { s with
      days := fresh.days
      times := fresh.times
      capacity := fresh.capacity
      enrolled := fresh.enrolled
      faculty := fresh.faculty
      room := fresh.room }

/-- Reads the sections of a course again. Only when forced are they taken from the catalog; what is
selected stays so. -/
def refreshSections (m : Memory) (id : Int) (force : Bool) : Except Error Memory :=
  match m.course? id with
  | none => .error (noCourse id)
  | some c =>
    match m.catalogEntry? c.code with
    | some template =>
      if force then
        .ok (m.update id fun c => { c with sections := c.sections.map (refreshSection template) })
      else .ok m
    | none => .ok m

/-- The first section whose kind is in `seen` or that of an earlier section. -/
def repeatedKind? (seen : List String) : List SectionRecord → Option String
  | [] => none
  | s :: rest =>
    let key := typeKey s.code
    if key ∈ seen then some key else repeatedKind? (key :: seen) rest

/-- Replaces the selected sections of a course: each of them is one of its sections, and no two are
of one kind. -/
def selectSections (m : Memory) (id : Int) (sectionIds : List Int) : Except Error Memory :=
  match m.course? id with
  | none => .error (noCourse id)
  | some c =>
    let wanted := IdSet.ofList sectionIds
    match wanted.toList.find? fun i => !c.sections.any (·.id = i) with
    | some foreign =>
      .error (.invalid
        ("section " ++ toString foreign ++ " does not belong to course " ++ toString id))
    | none =>
      match repeatedKind? [] (c.sections.filter fun s => s.id ∈ wanted) with
      | some key =>
        .error (.invalid
          ("more than one " ++ key ++ " section selected for course " ++ toString id))
      | none =>
        .ok (m.update id fun c =>
          { c with sections := c.sections.map fun s => setSelected s (s.id ∈ wanted) })

/-- The schedule that a build of the current scope finds. -/
def schedule (m : Memory) : Schedule := Placement.build (Plan.ofRecord m.snapshot)

/-- Selects what a schedule has chosen in every course of the current scope, and nothing else. -/
def autoBuild (m : Memory) : Memory :=
  let plan := Plan.ofRecord m.snapshot
  let selected := m.schedule.selected
  { m with courses := m.courses.map fun c =>
      if plan.hasCourse c.id then
        { c with sections := c.sections.map fun s => setSelected s (s.id ∈ selected) }
      else c }

/-- Removes every course, or those of one term. -/
def reset (m : Memory) (term : Option String) : Memory :=
  match term with
  | none => { m with courses := [] }
  | some t => { m with courses := m.courses.filter (·.term ≠ t) }

/-- Answers with the plan after a change. -/
def answerPlan (m : Memory) : Except Error Memory → Reply .plan × Memory
  | .ok m' => (.ok m'.snapshot, m')
  | .error e => (.error e, m)

/-- Answers a call. -/
def serve (m : Memory) : {k : Kind} → Call k → Reply k × Memory
  | _, .fetchPlan term => m.answerPlan (.ok (m.fetchPlan term))
  | _, .addCourse code term => m.answerPlan (m.addCourse code term)
  | _, .removeCourse id => m.removeCourse id
  | _, .refreshSections id force => m.answerPlan (m.refreshSections id force)
  | _, .selectSections id sectionIds => m.answerPlan (m.selectSections id sectionIds)
  | _, .autoBuild => (.ok ⟨m.schedule.message, m.schedule.unplaced⟩, m.autoBuild)
  | _, .reset term => (.ok (), m.reset term)

end Memory

end Timetable.Store
