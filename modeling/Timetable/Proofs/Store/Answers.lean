import Timetable.Store.Memory

/-!
# What a call does to the store as a whole

A call that fails leaves the store as it was (`serve_error`). The removal of a course is made before
it is found to have failed, but then there was nothing to remove (`removeCourse_eq`). Only fetching
the plan of a term changes the term that answers are scoped to (`serve_term`).
-/

namespace Timetable.Store

/-- The term that a call makes the scope of answers. -/
def Call.scope : {k : Kind} → Call k → Option String
  | _, .fetchPlan term => term
  | _, .addCourse .. => none
  | _, .removeCourse _ => none
  | _, .refreshSections .. => none
  | _, .selectSections .. => none
  | _, .autoBuild => none
  | _, .reset _ => none

namespace Memory

variable {m m' : Memory}

/-- As many courses are left as before exactly when none has the id. -/
theorem removeCourse_eq (m : Memory) (id : Int) :
    m.removeCourse id =
      (if (m.course? id).isSome then .ok () else .error (noCourse id),
        { m with courses := m.courses.filter (·.id ≠ id) }) := by
  have unchanged :
      (m.courses.filter (·.id ≠ id)).length = m.courses.length ↔ m.course? id = none := by
    rw [List.length_filter_eq_length_iff, course?, List.find?_eq_none]
    simp only [decide_not, Bool.not_eq_eq_eq_not, Bool.not_true, Bool.not_eq_true]
  simp only [removeCourse]
  cases found : m.course? id with
  | none =>
    rw [if_pos (unchanged.mpr found)]
    rfl
  | some c =>
    have fewer : (m.courses.filter (·.id ≠ id)).length ≠ m.courses.length := by
      intro same
      rw [unchanged.mp same] at found
      cases found
    rw [if_neg fewer]
    rfl

/-! ## The term -/

theorem fetchPlan_term (m : Memory) (term : Option String) :
    (m.fetchPlan term).term = term.or m.term := by
  cases term <;> rfl

theorem addCourse_term {code term : String} (added : m.addCourse code term = .ok m') :
    m'.term = m.term := by
  unfold addCourse at added
  split at added
  · cases added
  · split at added <;> cases added
    rfl

theorem refreshSections_term {id : Int} {force : Bool}
    (refreshed : m.refreshSections id force = .ok m') : m'.term = m.term := by
  unfold refreshSections at refreshed
  split at refreshed
  · cases refreshed
  · split at refreshed
    · split at refreshed <;> cases refreshed <;> rfl
    · cases refreshed
      rfl

theorem selectSections_term {id : Int} {sectionIds : List Int}
    (selected : m.selectSections id sectionIds = .ok m') : m'.term = m.term := by
  simp only [selectSections] at selected
  split at selected
  · cases selected
  · split at selected
    · cases selected
    · split at selected <;> cases selected
      rfl

theorem reset_term (m : Memory) (term : Option String) : (m.reset term).term = m.term := by
  cases term <;> rfl

theorem answerPlan_term {changed : Except Error Memory}
    (kept : ∀ m', changed = .ok m' → m'.term = m.term) :
    (m.answerPlan changed).2.term = m.term := by
  cases changed with
  | ok after => exact kept after rfl
  | error e => rfl

theorem serve_term (m : Memory) {k : Kind} (call : Call k) :
    (m.serve call).2.term = call.scope.or m.term := by
  cases call with
  | fetchPlan term => exact fetchPlan_term m term
  | addCourse code term => exact answerPlan_term fun _ => addCourse_term
  | removeCourse id =>
    show (m.removeCourse id).2.term = m.term
    rw [removeCourse_eq]
  | refreshSections id force => exact answerPlan_term fun _ => refreshSections_term
  | selectSections id sectionIds => exact answerPlan_term fun _ => selectSections_term
  | autoBuild => rfl
  | reset term => exact reset_term m term

/-! ## Failures -/

theorem answerPlan_error {changed : Except Error Memory} {e : Error}
    (failed : (m.answerPlan changed).1 = .error e) : (m.answerPlan changed).2 = m := by
  cases changed with
  | ok after => cases failed
  | error e' => rfl

theorem removeCourse_error {id : Int} {e : Error} (failed : (m.removeCourse id).1 = .error e) :
    (m.removeCourse id).2 = m := by
  rw [removeCourse_eq] at failed ⊢
  cases found : m.course? id with
  | some c =>
    rw [found] at failed
    cases failed
  | none =>
    have others : ∀ c ∈ m.courses, decide (c.id ≠ id) = true := by simpa [course?] using found
    show { m with courses := m.courses.filter (·.id ≠ id) } = m
    rw [List.filter_eq_self.mpr others]

/-- A call that fails leaves the store as it was. -/
theorem serve_error {k : Kind} {call : Call k} {e : Error} (failed : (m.serve call).1 = .error e) :
    (m.serve call).2 = m := by
  cases call with
  | fetchPlan term => cases failed
  | addCourse code term => exact answerPlan_error failed
  | removeCourse id => exact removeCourse_error failed
  | refreshSections id force => exact answerPlan_error failed
  | selectSections id sectionIds => exact answerPlan_error failed
  | autoBuild => cases failed
  | reset term => cases failed

theorem answerPlan_ok {changed : Except Error Memory} {r : PlanRecord}
    (answered : (m.answerPlan changed).1 = .ok r) : (m.answerPlan changed).2.snapshot = r := by
  cases changed with
  | ok after => cases answered; rfl
  | error e => cases answered

/-- A call for a plan is answered with the plan that the store holds after it. -/
theorem serve_ok {call : Call .plan} {r : PlanRecord} (answered : (m.serve call).1 = .ok r) :
    (m.serve call).2.snapshot = r := by
  cases call <;> exact answerPlan_ok answered

end Memory

end Timetable.Store
