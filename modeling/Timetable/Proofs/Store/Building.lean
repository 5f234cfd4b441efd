import Mathlib.Data.List.Basic
import Mathlib.Data.List.Forall2
import Timetable.Proofs.Placement.Build
import Timetable.Proofs.Store.Selection

/-!
# What building leaves in the store

Building flags in every course of the scope the sections that were chosen for it, and in no other
course any (`Memory.autoBuild_courses`). The plan that is read from the store afterwards has exactly
these sections selected (`Course.map_selected_choose`): what is chosen has one section of a kind, so
reading repairs nothing. What is known of the choice is then known of that plan. Main statement:
`Memory.autoBuild_sound`.
-/

namespace Timetable

namespace Course

/-! ## Courses with and without a place -/

/-- In every type group one section is selected. -/
def Placed (c : Course) : Prop := ∀ g ∈ c.typeGroups, (g.2.filter (·.selected)).length = 1

/-- There are type groups, and no section is selected. -/
def Unplaced (c : Course) : Prop := c.typeGroups ≠ [] ∧ c.selected = []

instance (c : Course) : Decidable c.Placed := inferInstanceAs (Decidable (∀ g ∈ _, _))

instance (c : Course) : Decidable c.Unplaced := inferInstanceAs (Decidable (_ ∧ _))

theorem length_selected_group (c : Course) (key : String) :
    ((c.group key).filter (·.selected)).length = (c.selected.map (·.typeKey)).count key := by
  rw [count_kinds, filter_group]

theorem placed_iff {c : Course} :
    c.Placed ↔ ∀ key ∈ c.typeKeys, (c.selected.map (·.typeKey)).count key = 1 := by
  simp only [Placed, typeGroups, List.forall_mem_map, length_selected_group]

theorem typeGroups_eq_nil_iff {c : Course} : c.typeGroups = [] ↔ c.typeKeys = [] :=
  List.map_eq_nil_iff

end Course

namespace Store.Memory

variable {m : Memory}

/-- Out of the scope are the courses of the other terms, when the store has a term. -/
theorem inScope_eq_false_iff {c : CourseRecord} :
    m.inScope c = false ↔ ∃ t, m.term = some t ∧ c.term ≠ t := by
  unfold inScope
  cases m.term with
  | none => simp
  | some t => simp

section Distinct

variable (courseIds : (m.courses.map (·.id)).Nodup)
include courseIds

theorem hasCourse_plan {c : CourseRecord} (member : c ∈ m.courses) :
    m.plan.hasCourse c.id = m.inScope c := by
  rw [Plan.hasCourse, courses_plan courseIds, List.any_map, Bool.eq_iff_iff, List.any_eq_true]
  constructor
  · rintro ⟨c', among, same⟩
    obtain ⟨member', inside⟩ := List.mem_filter.mp among
    obtain rfl := List.inj_on_of_nodup_map courseIds member' member (of_decide_eq_true same)
    exact inside
  · intro inside
    exact ⟨c, List.mem_filter.mpr ⟨member, inside⟩, decide_eq_true rfl⟩

variable (sectionIds : (m.courses.flatMap fun c => c.sections.map (·.id)).Nodup)
include sectionIds

theorem schedule_eq : m.schedule =
    { selected := .ofList (Placement.chosenIds m.plan)
      placed := (m.plan.courses.filter fun c => Placement.Filled m.plan c).map (·.code)
      unplaced := (m.plan.courses.filter fun c => ¬Placement.Filled m.plan c).map (·.code) } :=
  Placement.build_eq (sectionIds_snapshot courseIds sectionIds)

theorem autoBuild_courses :
    m.autoBuild.courses = m.courses.map fun c =>
      if m.inScope c = true then choose (Placement.chosenIds m.plan) c else c := by
  refine List.map_congr_left fun c member => ?_
  rw [schedule_eq courseIds sectionIds, hasCourse_plan courseIds member]
  rfl

theorem filter_built :
    m.autoBuild.courses.filter m.autoBuild.inScope =
      (m.courses.filter m.inScope).map (choose (Placement.chosenIds m.plan)) := by
  have kept : (m.autoBuild.inScope ∘ fun c =>
      if m.inScope c = true then choose (Placement.chosenIds m.plan) c else c) = m.inScope := by
    funext c
    rw [Function.comp_apply]
    split <;> rfl
  rw [autoBuild_courses courseIds sectionIds, List.filter_map, kept]
  refine List.map_congr_left fun c member => ?_
  rw [if_pos (List.mem_filter.mp member).2]

theorem courses_built :
    m.autoBuild.plan.courses =
      (m.courses.filter m.inScope).map fun c =>
        Course.ofRecord (choose (Placement.chosenIds m.plan) c) := by
  have built : m.autoBuild.snapshot.courses = _ := filter_built courseIds sectionIds
  have distinct : (m.autoBuild.snapshot.courses.map (·.id)).Nodup := by
    rw [built, List.map_map]
    exact nodup_snapshot courseIds
  rw [plan, Plan.courses_ofRecord distinct, built, List.map_map]
  rfl

theorem nodup_kinds_chosenIds {r : CourseRecord} (member : r ∈ m.courses.filter m.inScope) :
    ((r.sections.filter (·.id ∈ Placement.chosenIds m.plan)).map (typeKey ·.code)).Nodup := by
  have course := mem_courses_plan courseIds member
  have single := Placement.nodup_kinds_chosenIn (sectionIds_snapshot courseIds sectionIds) course
  rw [Placement.chosenIn, Course.map_filter_ofRecord (·.typeKey) (fun _ => rfl)
    (· ∈ Placement.chosenIds m.plan)] at single
  exact single

/-- In a course that was built, exactly what is chosen for it is selected. -/
theorem map_selected_built {β : Type} (f : Section → β)
    (blind : ∀ (s : Section) (on : Bool) (count : Nat),
      f { s with selected := on, selectedCount := count } = f s)
    {r : CourseRecord} (member : r ∈ m.courses.filter m.inScope) :
    (Course.ofRecord (choose (Placement.chosenIds m.plan) r)).selected.map f =
      (Placement.chosenIn m.plan (.ofRecord r)).map f := by
  have course := mem_courses_plan courseIds member
  exact map_selected_choose f blind
    (Placement.nodup_kinds_chosenIn (sectionIds_snapshot courseIds sectionIds) course)

theorem placed_built_iff {r : CourseRecord} (member : r ∈ m.courses.filter m.inScope) :
    (Course.ofRecord (choose (Placement.chosenIds m.plan) r)).Placed ↔
      Placement.Filled m.plan (.ofRecord r) := by
  have course := mem_courses_plan courseIds member
  have distinct := sectionIds_snapshot courseIds sectionIds
  rw [Course.placed_iff, typeKeys_choose,
    map_selected_built courseIds sectionIds (·.typeKey) (fun _ _ _ => rfl) member]
  constructor
  · intro placed
    refine (Placement.filled_or_empty distinct course).resolve_right ?_
    rintro ⟨some_kind, none_chosen⟩
    obtain ⟨key, among⟩ := List.exists_mem_of_ne_nil _ some_kind
    have once := placed key among
    rw [none_chosen] at once
    cases once
  · intro filled key among
    rw [filled.count_eq]
    exact List.count_eq_one_of_mem (Course.ofRecord r).nodup_typeKeys among

theorem unplaced_built_iff {r : CourseRecord} (member : r ∈ m.courses.filter m.inScope) :
    (Course.ofRecord (choose (Placement.chosenIds m.plan) r)).Unplaced ↔
      ¬Placement.Filled m.plan (.ofRecord r) := by
  have course := mem_courses_plan courseIds member
  have selected := map_selected_built courseIds sectionIds (·.typeKey) (fun _ _ _ => rfl) member
  rw [Course.Unplaced, Ne, Course.typeGroups_eq_nil_iff, typeKeys_choose]
  constructor
  · rintro ⟨some_kind, none_selected⟩ filled
    rw [none_selected, List.map_nil] at selected
    exact some_kind (List.nil_perm.mp (selected ▸ filled))
  · intro unfilled
    obtain ⟨some_kind, none_chosen⟩ :=
      (Placement.filled_or_empty (sectionIds_snapshot courseIds sectionIds) course).resolve_left
        unfilled
    rw [none_chosen, List.map_nil, List.map_eq_nil_iff] at selected
    exact ⟨some_kind, selected⟩

/-- The codes of the courses that were built, sorted out by what was chosen for them. -/
theorem codes_built {kept keep : Course → Bool}
    (same : ∀ r ∈ m.courses.filter m.inScope,
      kept (Course.ofRecord (choose (Placement.chosenIds m.plan) r)) = keep (Course.ofRecord r)) :
    (m.autoBuild.plan.courses.filter kept).map (·.code) =
      (m.plan.courses.filter keep).map (·.code) := by
  have sorted : (m.courses.filter m.inScope).filter
      (kept ∘ fun r => Course.ofRecord (choose (Placement.chosenIds m.plan) r)) =
        (m.courses.filter m.inScope).filter (keep ∘ Course.ofRecord) := List.filter_congr same
  rw [courses_built courseIds sectionIds, courses_plan courseIds, List.filter_map, List.filter_map,
    sorted, List.map_map, List.map_map]
  rfl

/-- In courses that were built, exactly the meetings of what is chosen for them are held. -/
theorem heldMeetings_built {records : List CourseRecord}
    (part : ∀ r ∈ records, r ∈ m.courses.filter m.inScope) :
    heldMeetings (records.map fun r => Course.ofRecord (choose (Placement.chosenIds m.plan) r)) =
      ((records.map Course.ofRecord).flatMap (Placement.chosenIn m.plan)).filterMap (·.meeting) := by
  rw [heldMeetings, List.flatMap_map, List.flatMap_map, List.filterMap_flatMap,
    List.filterMap_flatMap]
  refine List.flatMap_congr fun r member => ?_
  have selected := congrArg (List.filterMap id)
    (map_selected_built courseIds sectionIds (·.meeting) (fun _ _ _ => rfl) (part r member))
  rw [List.filterMap_map, List.filterMap_map] at selected
  exact selected

theorem meetings_built :
    m.autoBuild.plan.meetings.map Prod.snd =
      (m.plan.courses.flatMap (Placement.chosenIn m.plan)).filterMap (·.meeting) := by
  rw [Plan.map_meetings, courses_built courseIds sectionIds,
    heldMeetings_built courseIds sectionIds fun r member => member, courses_plan courseIds]

theorem conflicts_built : m.autoBuild.plan.conflicts.hasConflict = false := by
  have apart := Placement.apart_chosenIn (sectionIds_snapshot courseIds sectionIds)
  have none_reported := Conflict.clashes_eq_nil_iff.mpr
    (meetings_built courseIds sectionIds ▸ apart)
  rw [← Bool.not_eq_true, Plan.conflicts, Conflict.hasConflict_detect, none_reported]
  simp

theorem single_built : ∀ r ∈ m.autoBuild.snapshot.courses, r.Single := by
  show ∀ r ∈ m.autoBuild.courses.filter m.autoBuild.inScope, r.Single
  rw [filter_built courseIds sectionIds, List.forall_mem_map]
  intro r member
  exact single_choose (nodup_kinds_chosenIds courseIds sectionIds member)

theorem placed_iff_not_unplaced {c : Course} (course : c ∈ m.autoBuild.plan.courses) :
    c.Placed ↔ ¬c.Unplaced := by
  rw [courses_built courseIds sectionIds] at course
  obtain ⟨r, member, rfl⟩ := List.mem_map.mp course
  rw [placed_built_iff courseIds sectionIds member, unplaced_built_iff courseIds sectionIds member,
    not_not]

theorem placed_schedule :
    m.schedule.placed = (m.autoBuild.plan.courses.filter fun c => c.Placed).map (·.code) := by
  rw [schedule_eq courseIds sectionIds]
  exact (codes_built courseIds sectionIds fun r member =>
    decide_eq_decide.mpr (placed_built_iff courseIds sectionIds member)).symm

theorem unplaced_schedule :
    m.schedule.unplaced = (m.autoBuild.plan.courses.filter fun c => c.Unplaced).map (·.code) := by
  rw [schedule_eq courseIds sectionIds]
  exact (codes_built courseIds sectionIds fun r member =>
    decide_eq_decide.mpr (unplaced_built_iff courseIds sectionIds member)).symm

theorem length_schedule :
    m.schedule.placed.length + m.schedule.unplaced.length = m.autoBuild.plan.courses.length := by
  have parts := List.length_eq_length_filter_add (fun c : Course => decide c.Placed)
    (l := m.autoBuild.plan.courses)
  have others : (m.autoBuild.plan.courses.filter fun c => !decide c.Placed) =
      m.autoBuild.plan.courses.filter fun c => c.Unplaced :=
    List.filter_congr fun c course => by simp [placed_iff_not_unplaced courseIds sectionIds course]
  rw [placed_schedule courseIds sectionIds, unplaced_schedule courseIds sectionIds,
    List.length_map, List.length_map, parts, others]

end Distinct

/-- What building leaves in a store, and what it reports. -/
structure Built (m m' : Memory) (summary : BuildSummary) : Prop where
  clashless : m'.plan.conflicts.hasConflict = false
  single : ∀ r ∈ m'.snapshot.courses, r.Single
  each : ∀ c ∈ m'.plan.courses, c.Placed ∧ ¬c.Unplaced ∨ c.Unplaced ∧ ¬c.Placed
  unplaced : summary.unplaced = (m'.plan.courses.filter fun c => c.Unplaced).map (·.code)
  placed : m.schedule.placed = (m'.plan.courses.filter fun c => c.Placed).map (·.code)
  message : summary.message = m.schedule.message
  counted : m.schedule.placed.length + summary.unplaced.length = m'.plan.courses.length
  courses : m'.plan.courses.map (·.id) = m.plan.courses.map (·.id)
  outside : List.Forall₂ (fun c c' => m.inScope c = false → c' = c) m.courses m'.courses
  otherTerm : ∀ t, m.term = some t →
    List.Forall₂ (fun c c' => c.term ≠ t → c' = c) m.courses m'.courses

/-- After building, reading the plan repairs nothing and it has no clash, every course has a section
of each kind or none at all, the report names the courses without a place, and courses out of the
scope, which are those of other terms, are as they were. -/
theorem autoBuild_sound {m : Memory} (courseIds : (m.courses.map (·.id)).Nodup)
    (sectionIds : (m.courses.flatMap fun c => c.sections.map (·.id)).Nodup) :
    ∃ summary, (m.serve .autoBuild).1 = .ok summary ∧ Built m (m.serve .autoBuild).2 summary := by
  refine ⟨⟨m.schedule.message, m.schedule.unplaced⟩, rfl, ?_⟩
  have outside : List.Forall₂ (fun c c' => m.inScope c = false → c' = c) m.courses
      m.autoBuild.courses := by
    rw [autoBuild_courses courseIds sectionIds, List.forall₂_map_right_iff, List.forall₂_same]
    intro c member outside
    rw [if_neg (by simp [outside])]
  constructor
  case clashless => exact conflicts_built courseIds sectionIds
  case single => exact single_built courseIds sectionIds
  case each =>
    intro c course
    have split : c.Placed ↔ ¬c.Unplaced := placed_iff_not_unplaced courseIds sectionIds course
    by_cases unplaced : c.Unplaced
    · exact .inr ⟨unplaced, fun placed => split.mp placed unplaced⟩
    · exact .inl ⟨split.mpr unplaced, unplaced⟩
  case unplaced => exact unplaced_schedule courseIds sectionIds
  case placed => exact placed_schedule courseIds sectionIds
  case message => rfl
  case counted => exact length_schedule courseIds sectionIds
  case courses =>
    show m.autoBuild.plan.courses.map (·.id) = _
    rw [courses_built courseIds sectionIds, courses_plan courseIds, List.map_map, List.map_map]
    rfl
  case outside => exact outside
  case otherTerm =>
    intro t scope
    refine outside.imp fun c c' kept other => kept ?_
    exact inScope_eq_false_iff.mpr ⟨t, scope, other⟩

/-- Two courses that need the same hour, and a course of another term with two lectures selected. -/
def crowded : Memory where
  courses :=
    [{ id := 1, code := "CS 1713", term := "202620"
       sections :=
         [{ id := 11, courseId := 1, code := "L1", days := "MWF", times := "9:00 AM - 9:50 AM" },
          { id := 12, courseId := 1, code := "R1", days := "T", times := "9:00 AM - 9:50 AM" }] },
     { id := 2, code := "MAT 1214", term := "202620"
       sections :=
         [{ id := 21, courseId := 2, code := "L1", days := "MF", times := "9:30 AM - 10:20 AM"
            selected := true }] },
     { id := 3, code := "BIO 1404", term := "202710"
       sections :=
         [{ id := 31, courseId := 3, code := "L1", selected := true },
          { id := 32, courseId := 3, code := "L2", selected := true }] }]
  catalog := []
  term := some "202620"
  lastId := 32

theorem autoBuild_sound_crowded :
    (crowded.courses.map (·.id)).Nodup ∧
      (crowded.courses.flatMap fun c => c.sections.map (·.id)).Nodup ∧
      ∃ summary, (crowded.serve .autoBuild).1 = .ok summary ∧
        Built crowded (crowded.serve .autoBuild).2 summary ∧ summary.unplaced = ["MAT 1214"] := by
  have courseIds : (crowded.courses.map (·.id)).Nodup := by decide
  have sectionIds : (crowded.courses.flatMap fun c => c.sections.map (·.id)).Nodup := by decide
  have unplaced : crowded.schedule.unplaced = ["MAT 1214"] := by decide +kernel
  obtain ⟨summary, reported, built⟩ := autoBuild_sound courseIds sectionIds
  refine ⟨courseIds, sectionIds, summary, reported, built, ?_⟩
  cases reported
  exact unplaced

end Store.Memory

end Timetable
