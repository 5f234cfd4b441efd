import Timetable.Proofs.Placement.Settled
import Timetable.Proofs.Store.Building

/-!
# Building once more

Building counts what it selects, and a section that is counted is less likely to be obtained. So a
build that follows at once reads other counters than the one before, and may select other sections.
The plan that a build leaves stands (`Memory.standing_autoBuild`): a course without a place has none
the second time either, for a place depends on kinds and meetings alone. So the second build answers
the same and changes nothing exactly when no course has a choice that comes sooner under the
counters as the first has left them. Main statement: `Memory.autoBuild_again_iff`.
-/

namespace Timetable

open Placement

namespace Store

/-! ## Flags that stay -/

theorem setSelected_eq_self_iff {s : SectionRecord} {on : Bool} :
    Memory.setSelected s on = s ↔ s.selected = on := by
  constructor
  · intro same
    exact (congrArg (·.selected) same).symm
  · intro same
    subst same
    obtain ⟨_, _, _, _, _, _, _, _, _, _, selected⟩ := s
    cases selected <;> rfl

theorem map_eq_self_iff {α : Type} {f : α → α} {l : List α} :
    l.map f = l ↔ ∀ x ∈ l, f x = x := by
  conv => lhs; rhs; rw [← List.map_id l]
  exact List.map_inj_left

theorem perm_filter_iff {α : Type} {l : List α} {p q : α → Bool} :
    (l.filter p).Perm (l.filter q) ↔ ∀ x ∈ l, p x = q x := by
  constructor
  · intro perm x member
    have same := perm.mem_iff (a := x)
    rw [List.mem_filter, List.mem_filter, and_iff_right member, and_iff_right member] at same
    exact Bool.eq_iff_iff.mpr same
  · exact fun same => .of_eq (List.filter_congr same)

theorem choose_eq_self_iff {ids : List Int} {r : CourseRecord} :
    choose ids r = r ↔ ∀ s ∈ r.sections, decide (s.id ∈ ids) = s.selected := by
  have sections : choose ids r = r ↔ (choose ids r).sections = r.sections := by
    constructor
    · exact congrArg CourseRecord.sections
    · exact congrArg fun sections => { r with sections := sections }
  rw [sections, choose, map_eq_self_iff]
  refine forall₂_congr fun s _ => ?_
  rw [setSelected_eq_self_iff, eq_comm, decide_eq_decide.mpr IdSet.mem_ofList]

theorem sections_ofRecord {r : CourseRecord} (single : r.Single) :
    (Course.ofRecord r).sections = r.sections.map (Section.ofRecord r.id) := by
  refine Course.keepFirst_eq_self ?_ fun _ _ => List.not_mem_nil
  rw [List.filter_map, List.map_map]
  exact single

theorem offers_choose (ids : List Int) (r : CourseRecord) :
    (Course.ofRecord (choose ids r)).sections.map offer =
      (Course.ofRecord r).sections.map offer := by
  rw [Course.ofRecord, Course.ofRecord, Course.map_keepFirst offer fun _ => rfl,
    Course.map_keepFirst offer fun _ => rfl, choose, List.map_map, List.map_map, List.map_map]
  rfl

namespace Memory

variable {m : Memory}

/-- The flags and counters of all sections. -/
def marks (m : Memory) : List (List (Bool × Option Int)) :=
  m.courses.map fun c => c.sections.map fun s => (s.selected, s.selectedCount)

theorem autoBuild_eq_self_iff_courses : m.autoBuild = m ↔ m.autoBuild.courses = m.courses := by
  constructor
  · exact congrArg Memory.courses
  · exact congrArg fun courses => { m with courses := courses }

/-- Building changes nothing but flags and counters. -/
theorem autoBuild_eq_self_of_marks (same : marks m.autoBuild = marks m) : m.autoBuild = m := by
  rw [marks, marks, autoBuild, List.map_map, List.map_inj_left] at same
  rw [autoBuild_eq_self_iff_courses, autoBuild, map_eq_self_iff]
  intro c member
  have flags := same c member
  rw [Function.comp_apply] at flags
  split at flags
  · next inside =>
    rw [List.map_map, List.map_inj_left] at flags
    have sections : c.sections.map (fun s => setSelected s (s.id ∈ m.schedule.selected)) =
        c.sections := by
      refine map_eq_self_iff.mpr fun s among => setSelected_eq_self_iff.mpr ?_
      exact (congrArg Prod.fst (flags s among)).symm
    rw [if_pos inside, sections]
  · next outside => rw [if_neg outside]

section Distinct

variable (courseIds : (m.courses.map (·.id)).Nodup)
  (sectionIds : (m.courses.flatMap fun c => c.sections.map (·.id)).Nodup)
include courseIds sectionIds

theorem map_built {β : Type} (f : CourseRecord → β) (blind : ∀ ids c, f (choose ids c) = f c) :
    m.autoBuild.courses.map f = m.courses.map f := by
  rw [autoBuild_courses courseIds sectionIds, List.map_map]
  refine List.map_congr_left fun c _ => ?_
  rw [Function.comp_apply]
  split
  · exact blind _ c
  · rfl

theorem courseIds_built : (m.autoBuild.courses.map (·.id)).Nodup := by
  rw [map_built courseIds sectionIds (·.id) fun _ _ => rfl]
  exact courseIds

theorem sectionIds_built : (m.autoBuild.courses.flatMap fun c => c.sections.map (·.id)).Nodup := by
  rw [List.flatMap_def, map_built courseIds sectionIds]
  · exact sectionIds
  · intro ids c
    show (c.sections.map _).map SectionRecord.id = c.sections.map SectionRecord.id
    rw [List.map_map]
    rfl

/-- Building a plan that is read without repair changes nothing when what is selected is chosen. -/
theorem autoBuild_eq_self_iff (single : ∀ r ∈ m.snapshot.courses, r.Single) :
    m.autoBuild = m ↔ ∀ c ∈ m.plan.courses, (chosenIn m.plan c).Perm c.selected := by
  have course : ∀ r ∈ m.courses.filter m.inScope,
      ((chosenIn m.plan (.ofRecord r)).Perm (Course.ofRecord r).selected ↔
        choose (chosenIds m.plan) r = r) := by
    intro r member
    rw [choose_eq_self_iff, chosenIn, Course.selected, perm_filter_iff,
      sections_ofRecord (single r member), List.forall_mem_map]
    rfl
  rw [autoBuild_eq_self_iff_courses, autoBuild_courses courseIds sectionIds, map_eq_self_iff,
    courses_plan courseIds, List.forall_mem_map]
  refine Iff.trans ?_ (forall₂_congr course).symm
  constructor
  · intro same r member
    have built := same r (List.mem_filter.mp member).1
    rwa [if_pos (List.mem_filter.mp member).2] at built
  · intro same r member
    split
    · next inside => exact same r (List.mem_filter.mpr ⟨member, inside⟩)
    · rfl

/-- A course for which nothing was found has no place beside what was chosen either. -/
theorem placeCourse_built {before after : List CourseRecord} {r : CourseRecord}
    (split : m.courses.filter m.inScope = before ++ r :: after)
    (unfilled : ¬Filled m.plan (.ofRecord r)) :
    placeCourse (.ofRecord (choose (chosenIds m.plan) r))
      (heldMeetings (before.map fun r => .ofRecord (choose (chosenIds m.plan) r))) = none := by
  have distinct := sectionIds_snapshot courseIds sectionIds
  have courses : m.plan.courses =
      before.map Course.ofRecord ++ Course.ofRecord r :: after.map Course.ofRecord := by
    rw [courses_plan courseIds, split, List.map_append, List.map_cons]
  have front : ∀ r ∈ before, r ∈ m.courses.filter m.inScope := by
    intro r member
    rw [split]
    exact List.mem_append_left _ member
  obtain ⟨some_kind, none_chosen⟩ :=
    (filled_or_empty distinct (c := .ofRecord r) (by simp [courses])).resolve_left unfilled
  have placed := chosenIn_perm_getD distinct courses
  rw [none_chosen, ← heldMeetings_built courseIds sectionIds front] at placed
  -- The course had no place before its flags and counters were written either.
  refine placeCourse_eq_none_of_offer (offers_choose _ r).symm ?_
  cases found : placeCourse (.ofRecord r) _ with
  | none => rfl
  | some chosen =>
    rw [found] at placed
    have empty : chosen = [] := placed.nil_eq.symm
    have kinds := (placeCourse_eq_some found).1
    rw [empty] at kinds
    exact absurd kinds.symm some_kind

theorem standing_autoBuild : Standing m.autoBuild.plan := by
  have ids := courseIds_built courseIds sectionIds
  refine ⟨sectionIds_snapshot ids (sectionIds_built courseIds sectionIds), ?apart, ?each⟩
  case apart =>
    rw [← Plan.map_meetings, meetings_built courseIds sectionIds]
    exact apart_chosenIn (sectionIds_snapshot courseIds sectionIds)
  case each =>
    intro before c after split
    rw [courses_built courseIds sectionIds, List.map_eq_append_iff] at split
    obtain ⟨front, behind, records, rfl, split⟩ := split
    obtain ⟨r, rest, rfl, rfl, rfl⟩ := List.map_eq_cons_iff.mp split
    have member : r ∈ m.courses.filter m.inScope := by simp [records]
    by_cases filled : Filled m.plan (.ofRecord r)
    · refine Or.inl (exists_choice_of_perm ?_)
      rw [typeKeys_choose,
        map_selected_built courseIds sectionIds (·.typeKey) (fun _ _ _ => rfl) member]
      exact filled
    · have unplaced := (unplaced_built_iff courseIds sectionIds member).mpr filled
      exact Or.inr ⟨unplaced.2, placeCourse_built courseIds sectionIds records filled⟩

theorem autoBuild_autoBuild_iff : m.autoBuild.autoBuild = m.autoBuild ↔ m.autoBuild.plan.Settled :=
  have ids := courseIds_built courseIds sectionIds
  have ids' := sectionIds_built courseIds sectionIds
  (autoBuild_eq_self_iff ids ids' (single_built courseIds sectionIds)).trans
    (standing_autoBuild courseIds sectionIds).kept_iff

/-- The report of a build can be read off the plan that it leaves. -/
theorem serve_autoBuild_of_eq (same : m.autoBuild.autoBuild = m.autoBuild) :
    m.autoBuild.serve .autoBuild = m.serve .autoBuild := by
  have ids := courseIds_built courseIds sectionIds
  have ids' := sectionIds_built courseIds sectionIds
  have placed : m.autoBuild.schedule.placed = m.schedule.placed := by
    rw [placed_schedule ids ids', same, placed_schedule courseIds sectionIds]
  have unplaced : m.autoBuild.schedule.unplaced = m.schedule.unplaced := by
    rw [unplaced_schedule ids ids', same, unplaced_schedule courseIds sectionIds]
  have message : m.autoBuild.schedule.message = m.schedule.message := by
    rw [Schedule.message, Schedule.message, placed, unplaced]
  show ((.ok ⟨m.autoBuild.schedule.message, m.autoBuild.schedule.unplaced⟩ : Reply .summary),
    m.autoBuild.autoBuild) = _
  rw [same, message, unplaced]
  rfl

/-- A build that follows another one at once leaves flags and counters as they are and answers the
same exactly when the plan that the first has left is settled; then nothing else changes either. -/
theorem autoBuild_again_iff :
    (marks ((m.serve .autoBuild).2.serve .autoBuild).2 = marks (m.serve .autoBuild).2 ∧
        ((m.serve .autoBuild).2.serve .autoBuild).1 = (m.serve .autoBuild).1 ↔
      (m.serve .autoBuild).2.plan.Settled) ∧
      ((m.serve .autoBuild).2.plan.Settled →
        (m.serve .autoBuild).2.serve .autoBuild = m.serve .autoBuild) := by
  have kept := autoBuild_autoBuild_iff courseIds sectionIds
  have again (settled : m.autoBuild.plan.Settled) :
      m.autoBuild.serve .autoBuild = m.serve .autoBuild :=
    serve_autoBuild_of_eq courseIds sectionIds (kept.mpr settled)
  refine ⟨⟨fun same => kept.mp (autoBuild_eq_self_of_marks same.1), fun settled => ?_⟩, again⟩
  have same := again settled
  exact ⟨congrArg (marks ·.2) same, congrArg Prod.fst same⟩

end Distinct

/-- A course with two lectures that are as likely as each other until one of them is selected. The
other course needs the hour of the second one. -/
def contended : Memory where
  courses :=
    [{ id := 1, code := "CS 1713", term := "202620"
       sections :=
         [{ id := 11, courseId := 1, code := "L1", days := "MWF", times := "9:00 AM - 9:50 AM"
            capacity := some 30, selectedCount := some 4 },
          { id := 12, courseId := 1, code := "L2", days := "MWF", times := "10:00 AM - 10:50 AM"
            capacity := some 30, selectedCount := some 4 }] },
     { id := 2, code := "MAT 1214", term := "202620"
       sections :=
         [{ id := 21, courseId := 2, code := "L1", days := "MWF"
            times := "10:00 AM - 10:50 AM" }] }]
  catalog := []
  term := some "202620"
  lastId := 21

theorem marks_contended_ne :
    marks ((contended.serve .autoBuild).2.serve .autoBuild).2 ≠
      marks (contended.serve .autoBuild).2 := by
  -- Sorting by merging cannot be evaluated in a proof, inserting can.
  simp only [serve, autoBuild, schedule, build]
  delta placeNext
  simp only [placeCourse, rank_eq_insertionSort]
  decide +kernel

/-- Building at once again need not leave flags and counters as they are. Of `contended`, the first
build places both courses and the second one only the first of them. -/
theorem not_forall_autoBuild_again :
    ¬∀ m : Memory, (m.courses.map (·.id)).Nodup →
      (m.courses.flatMap fun c => c.sections.map (·.id)).Nodup →
        marks ((m.serve .autoBuild).2.serve .autoBuild).2 = marks (m.serve .autoBuild).2 ∧
          ((m.serve .autoBuild).2.serve .autoBuild).1 = (m.serve .autoBuild).1 := by
  intro always
  obtain ⟨same, -⟩ := always contended (by decide) (by decide)
  exact marks_contended_ne same

theorem autoBuild_again_iff_contended :
    (contended.courses.map (·.id)).Nodup ∧
      (contended.courses.flatMap fun c => c.sections.map (·.id)).Nodup ∧
      ¬(contended.serve .autoBuild).2.plan.Settled ∧ (crowded.serve .autoBuild).2.plan.Settled := by
  have courseIds : (contended.courses.map (·.id)).Nodup := by decide
  have sectionIds : (contended.courses.flatMap fun c => c.sections.map (·.id)).Nodup := by decide
  refine ⟨courseIds, sectionIds, fun settled => ?_, ?_⟩
  · have same := (autoBuild_again_iff courseIds sectionIds).1.mpr settled
    exact marks_contended_ne same.1
  · apply (autoBuild_again_iff (by decide) (by decide)).1.mp
    exact ⟨by decide +kernel, by decide +kernel⟩

end Memory

end Store

end Timetable
