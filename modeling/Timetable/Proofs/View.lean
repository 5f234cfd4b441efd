import Mathlib.Data.List.Perm.Basic
import Timetable.Proofs.Conflict.Detection
import Timetable.Proofs.Placement.Search
import Timetable.Proofs.Plan.Selection
import Timetable.View

/-!
# What the view shows

The view of a plan is put together from the groups of its courses, its selection, its report and the
marks of its sections, each computed by itself. In a plan in which no section id repeats they agree
(`PlanView.Shows`): the groups of a course have each of its sections once
(`Course.flatMap_group_perm`), a group has one selected section at most, so that the number of groups
with one is the number of selected sections (`Course.filterMap_groups_perm`), and the ids that the
report names are those of the sections that are marked (`Plan.isClashing_conflicts_iff`). Main
statement: `PlanView.shows_plan`.
-/

namespace Timetable

/-! ## Groups -/

namespace Course

variable {c : Course} {key : String}

theorem mem_flatMap_group {s : Section} : s ∈ c.typeKeys.flatMap c.group ↔ s ∈ c.sections := by
  rw [List.mem_flatMap]
  constructor
  · intro among
    obtain ⟨key, -, member⟩ := among
    exact (mem_group.mp member).1
  · exact fun member => ⟨s.typeKey, mem_typeKeys.mpr ⟨s, member, rfl⟩, mem_group.mpr ⟨member, rfl⟩⟩

/-- The groups have the sections of the course, each once. -/
theorem flatMap_group_perm (nodup : c.sections.Nodup) :
    (c.typeKeys.flatMap c.group).Perm c.sections := by
  have once : (c.typeKeys.flatMap c.group).Nodup := by
    rw [List.nodup_flatMap]
    refine ⟨fun key _ => nodup.filter _, c.nodup_typeKeys.imp fun {k l} differ => ?_⟩
    intro s here there
    exact differ ((mem_group.mp here).2.symm.trans (mem_group.mp there).2)
  exact (List.perm_ext_iff_of_nodup once nodup).mpr fun s => mem_flatMap_group

/-- A group has one selected section at most. -/
theorem filter_selected_group (c : Course) (key : String) :
    (c.group key).filter (·.selected) = ((c.group key).find? (·.selected)).toList := by
  have single := c.length_chosen_le_one key
  rw [chosen, List.length_map, ← filter_group] at single
  rw [← List.head?_filter]
  generalize (c.group key).filter (·.selected) = found at single
  rcases found with _ | ⟨s, _ | ⟨t, rest⟩⟩
  · rfl
  · rfl
  · simp at single

/-- The sections that are found in the groups are those that are selected. -/
theorem filterMap_groups_perm (nodup : c.sections.Nodup) :
    (c.typeKeys.filterMap fun key => (c.group key).find? (·.selected)).Perm c.selected := by
  have found : (c.typeKeys.filterMap fun key => (c.group key).find? (·.selected)) =
      (c.typeKeys.flatMap c.group).filter (·.selected) := by
    rw [List.filterMap_eq_flatMap_toList, List.filter_flatMap]
    exact List.flatMap_congr fun key _ => (c.filter_selected_group key).symm
  rw [found]
  exact (flatMap_group_perm nodup).filter _

end Course

namespace Plan

variable {p : Plan}

/-! ## Marks -/

/-- The section is selected, and at some minute of the week it meets together with another selected
section of the plan. -/
def Clashes (p : Plan) (s : Section) : Prop :=
  s.selected = true ∧ ∃ m, s.meeting = some m ∧
    ∃ c ∈ p.courses, ∃ t ∈ c.sections, t.id ≠ s.id ∧ t.selected = true ∧
      ∃ n, t.meeting = some n ∧ ∃ d minute, m.Covers d minute ∧ n.Covers d minute

theorem mem_meetings_iff {id : Int} {m : Meeting} :
    (id, m) ∈ p.meetings ↔ ∃ c ∈ p.courses, ∃ s ∈ c.sections,
      s.selected = true ∧ s.id = id ∧ s.meeting = some m := by
  simp only [meetings, selection, Course.selected, List.mem_filterMap, List.mem_flatMap,
    List.mem_map, List.mem_filter, Option.map_eq_some_iff, Prod.mk.injEq]
  constructor
  · intro listed
    obtain ⟨_, ⟨c, course, s, ⟨member, on⟩, rfl⟩, n, meets, same, rfl⟩ := listed
    exact ⟨c, course, s, member, on, same, meets⟩
  · intro held
    obtain ⟨c, course, s, member, on, same, meets⟩ := held
    exact ⟨⟨c, s⟩, ⟨c, course, s, ⟨member, on⟩, rfl⟩, m, meets, same, rfl⟩

section Distinct

variable (distinct : p.sectionIds.Nodup)
include distinct

theorem nodup_selection : (p.selection.map (·.chosen.id)).Nodup := by
  obtain ⟨each, disjoint⟩ := List.nodup_flatMap.mp distinct
  have part (c : Course) : (c.selected.map (·.id)).Sublist (c.sections.map (·.id)) :=
    List.filter_sublist.map _
  have courses : p.selection.map (·.chosen.id) =
      p.courses.flatMap fun c => c.selected.map (·.id) := by
    simp [selection, List.map_flatMap, Function.comp_def]
  rw [courses, List.nodup_flatMap]
  constructor
  · exact fun c course => (part c).nodup (each c course)
  · refine disjoint.imp fun {c d} apart id here there => ?_
    exact apart ((part c).subset here) ((part d).subset there)

theorem nodup_meetings : (p.meetings.map Prod.fst).Nodup := by
  have ids := List.pairwise_map.mp (nodup_selection distinct)
  rw [List.Nodup, List.pairwise_map, meetings, List.pairwise_filterMap]
  refine ids.imp fun {e e'} differ x first y second => ?_
  obtain ⟨m, -, rfl⟩ := Option.map_eq_some_iff.mp first
  obtain ⟨n, -, rfl⟩ := Option.map_eq_some_iff.mp second
  exact differ

/-- The report names a section exactly when it clashes. -/
theorem isClashing_conflicts_iff {c : Course} {s : Section} (course : c ∈ p.courses)
    (member : s ∈ c.sections) : p.conflicts.isClashing s.id = true ↔ p.Clashes s := by
  rw [conflicts, Conflict.isClashing_detect_iff (nodup_meetings distinct)]
  constructor
  · intro named
    obtain ⟨m, listed, ⟨id, n⟩, listed', differ, together⟩ := named
    obtain ⟨c', course', s', member', on, same, meets⟩ := mem_meetings_iff.mp listed
    obtain ⟨rfl, rfl⟩ := section_eq_of_id distinct course' member' course member same
    obtain ⟨d, beside, t, among, on', rfl, meets'⟩ := mem_meetings_iff.mp listed'
    exact ⟨on, m, meets, d, beside, t, among, differ, on', n, meets', together⟩
  · intro clashes
    obtain ⟨on, m, meets, d, beside, t, among, differ, on', n, meets', together⟩ := clashes
    have listed : (s.id, m) ∈ p.meetings :=
      mem_meetings_iff.mpr ⟨c, course, s, member, on, rfl, meets⟩
    have listed' : (t.id, n) ∈ p.meetings :=
      mem_meetings_iff.mpr ⟨d, beside, t, among, on', rfl, meets'⟩
    exact ⟨m, listed, (t.id, n), listed', differ, together⟩

theorem exists_of_isClashing {id : Int} (named : p.conflicts.isClashing id = true) :
    ∃ c ∈ p.courses, ∃ s ∈ c.sections, s.id = id := by
  rw [conflicts, Conflict.isClashing_detect_iff (nodup_meetings distinct)] at named
  obtain ⟨m, listed, -⟩ := named
  obtain ⟨c, course, s, member, -, same, -⟩ := mem_meetings_iff.mp listed
  exact ⟨c, course, s, member, same⟩

end Distinct

end Plan

/-! ## Views -/

namespace CourseView

/-- All sections that are shown for a course, group by group. -/
def sections (v : CourseView) : List SectionView := v.groups.flatMap (·.sections)

end CourseView

namespace PlanView

/-- All sections that are shown, course by course. -/
def sections (v : PlanView) : List SectionView := v.courses.flatMap (·.sections)

end PlanView

/-- A section is shown with its own data, and marked when it clashes. -/
structure SectionView.Shows (p : Plan) (s : Section) (v : SectionView) : Prop where
  identity : (v.id, v.code, v.days, v.times, v.meeting) = (s.id, s.code, s.days, s.times, s.meeting)
  isSelected : v.isSelected = s.selected
  isClashing : v.isClashing = true ↔ p.Clashes s

/-- A group has the sections of its kind in section order, and names the selected one. -/
structure GroupView.Shows (p : Plan) (context : ViewContext) (c : Course) (v : GroupView) :
    Prop where
  mutating : v.mutating = context.isMutating c.id v.typeKey
  sections :
    List.Forall₂ (SectionView.Shows p) (c.sections.filter (·.typeKey = v.typeKey)) v.sections
  selected : (v.sections.filter (·.isSelected)).map (·.id) = v.selectedId.toList

/-- The groups of a course come in the order in which their kinds first appear, and have each of its
sections once. -/
structure CourseView.Shows (p : Plan) (context : ViewContext) (c : Course) (v : CourseView) :
    Prop where
  identity : (v.id, v.code, v.term, v.title) = (c.id, c.code, c.term, c.title)
  groups : ∀ g ∈ v.groups, GroupView.Shows p context c g
  kinds : ∀ key, key ∈ v.groups.map (·.typeKey) ↔ ∃ s ∈ c.sections, s.typeKey = key
  order : (v.groups.map (·.typeKey)).Pairwise fun key key' =>
    (c.sections.map (·.typeKey)).idxOf key < (c.sections.map (·.typeKey)).idxOf key'
  once : (v.sections.map (·.id)).Perm (c.sections.map (·.id))

/-- The courses come in plan order, no section is shown twice, and the count and the report are
those of what is shown. -/
structure PlanView.Shows (p : Plan) (context : ViewContext) (v : PlanView) : Prop where
  identity : (v.phase, v.term, v.active) = (context.phase, p.term, context.active)
  courses : List.Forall₂ (CourseView.Shows p context) p.courses v.courses
  once : (v.sections.map (·.id)).Nodup
  selectedCount :
    v.selectedCount = ((v.courses.flatMap (·.groups)).filter (·.selectedId.isSome)).length
  hasConflict : v.hasConflict = true ↔ ∃ s ∈ v.sections, s.isClashing = true
  clashes : ∀ clash ∈ v.clashes, ∀ id, id = clash.first ∨ id = clash.second →
    ∃ s ∈ v.sections, s.id = id ∧ s.isClashing = true

section Of

variable {p : Plan} {c : Course} {report : ConflictReport} {context : ViewContext}

theorem CourseView.sections_of (report : ConflictReport) (context : ViewContext) (c : Course) :
    (CourseView.of report context c).sections =
      (c.typeKeys.flatMap c.group).map (SectionView.of report) := by
  rw [sections, CourseView.of, Course.typeGroups, List.map_map, List.flatMap_map, List.map_flatMap]
  rfl

/-- The number of groups with a selected section is that of the selected sections. -/
theorem CourseView.length_filter_groups_of (nodup : c.sections.Nodup) :
    ((CourseView.of report context c).groups.filter (·.selectedId.isSome)).length =
      c.selected.length := by
  have perm := c.filterMap_groups_perm nodup
  rw [← perm.length_eq, List.length_filterMap_eq_countP, CourseView.of, Course.typeGroups,
    List.map_map, ← List.countP_eq_length_filter, List.countP_map]
  refine List.countP_congr fun key _ => ?_
  simp [GroupView.of]

theorem PlanView.mem_sections_of {v : SectionView} :
    v ∈ (PlanView.of p report context).sections ↔
      ∃ c ∈ p.courses, ∃ s ∈ c.sections, SectionView.of report s = v := by
  rw [sections, PlanView.of, List.flatMap_map, List.mem_flatMap]
  simp only [CourseView.sections_of, List.mem_map, Course.mem_flatMap_group]

section Distinct

variable (distinct : p.sectionIds.Nodup)
include distinct

theorem GroupView.shows_of (course : c ∈ p.courses) (key : String) :
    GroupView.Shows p context c
      (GroupView.of p.conflicts (context.isMutating c.id) (key, c.group key)) := by
  constructor
  case mutating => rfl
  case sections =>
    show List.Forall₂ _ (c.group key) ((c.group key).map _)
    rw [List.forall₂_map_right_iff, List.forall₂_same]
    intro s member
    exact ⟨rfl, rfl, Plan.isClashing_conflicts_iff distinct course (Course.mem_group.mp member).1⟩
  case selected =>
    have found := congrArg (List.map (·.id)) (c.filter_selected_group key)
    show (((c.group key).map _).filter _).map _ = (((c.group key).find? _).map _).toList
    rw [List.filter_map, List.map_map, Option.toList_map]
    exact found

theorem CourseView.shows_of (course : c ∈ p.courses) :
    CourseView.Shows p context c (CourseView.of p.conflicts context c) := by
  have kinds : (CourseView.of p.conflicts context c).groups.map (·.typeKey) = c.typeKeys := by
    rw [CourseView.of, Course.typeGroups, List.map_map, List.map_map]
    exact List.map_id _
  refine ⟨rfl, ?groups, ?kinds, ?order, ?once⟩
  case groups =>
    rw [CourseView.of, Course.typeGroups, List.map_map, List.forall_mem_map]
    exact fun key _ => GroupView.shows_of distinct course key
  case kinds =>
    rw [kinds]
    exact fun key => Course.mem_typeKeys
  case order =>
    rw [kinds]
    exact pairwise_eraseDups _
  case once =>
    rw [sections_of, List.map_map]
    exact (c.flatMap_group_perm (Plan.nodup_sections_of_mem distinct course)).map _

/-- The view of a plan with its own report shows the plan. -/
theorem PlanView.shows_plan (context : ViewContext) :
    PlanView.Shows p context (PlanView.of p p.conflicts context) := by
  have shown {id : Int} (named : p.conflicts.isClashing id = true) :
      ∃ s ∈ (PlanView.of p p.conflicts context).sections, s.id = id ∧ s.isClashing = true := by
    obtain ⟨c, course, s, member, rfl⟩ := Plan.exists_of_isClashing distinct named
    exact ⟨_, mem_sections_of.mpr ⟨c, course, s, member, rfl⟩, rfl, named⟩
  constructor
  case identity => rfl
  case once =>
    rw [sections, PlanView.of, List.flatMap_map, List.map_flatMap]
    refine (List.Perm.flatMap_left _ fun c course => ?_).nodup distinct
    exact (CourseView.shows_of distinct course).once.symm
  case courses =>
    rw [PlanView.of, List.forall₂_map_right_iff, List.forall₂_same]
    exact fun c course => CourseView.shows_of distinct course
  case selectedCount =>
    show p.selection.length = (((p.courses.map _).flatMap _).filter _).length
    rw [List.flatMap_map, List.filter_flatMap, List.length_flatMap, Plan.selection,
      List.length_flatMap]
    refine congrArg List.sum (List.map_congr_left fun c course => ?_)
    rw [List.length_map]
    exact (CourseView.length_filter_groups_of (Plan.nodup_sections_of_mem distinct course)).symm
  case hasConflict =>
    constructor
    · intro conflict
      obtain ⟨clash, listed⟩ := Conflict.hasConflict_detect.mp conflict
      obtain ⟨v, among, -, marked⟩ :=
        shown (Conflict.isClashing_detect.mpr ⟨clash, listed, Or.inl rfl⟩)
      exact ⟨v, among, marked⟩
    · intro marked
      obtain ⟨v, among, marked⟩ := marked
      obtain ⟨c, -, s, -, rfl⟩ := mem_sections_of.mp among
      obtain ⟨clash, listed, -⟩ := Conflict.isClashing_detect.mp marked
      exact Conflict.hasConflict_detect.mpr ⟨clash, listed⟩
  case clashes =>
    intro clash listed id named
    exact shown (Conflict.isClashing_detect.mpr ⟨clash, listed, named⟩)

end Distinct

end Of

/-- Two courses of which two selected lectures share an hour of Friday. The first course has its
recitation between its lectures, and a selected section without a meeting. -/
def overlapping : Plan :=
  .ofRecord
    { courses :=
        [{ id := 1, code := "CS 1713", term := "202620"
           sections :=
             [{ id := 11, courseId := 1, code := "L1", days := "MWF"
                times := "9:00 AM - 9:50 AM" },
              { id := 12, courseId := 1, code := "R1", selected := true },
              { id := 13, courseId := 1, code := "L2", days := "MWF"
                times := "10:00 AM - 10:50 AM", selected := true }] },
         { id := 2, code := "MAT 1214", term := "202620"
           sections :=
             [{ id := 21, courseId := 2, code := "001", days := "F", times := "10:30 AM - 11:20 AM"
                selected := true }] }] }

/-- The first course is open, and a change of its lectures is on its way. -/
def lecturesMutating : ViewContext := ⟨.ready, some 1, fun id key => id = 1 && key = "L"⟩

theorem PlanView.shows_plan_overlapping :
    overlapping.sectionIds.Nodup ∧
      PlanView.Shows overlapping lecturesMutating
        (.of overlapping overlapping.conflicts lecturesMutating) ∧
      (PlanView.of overlapping overlapping.conflicts lecturesMutating).sections.map
          (fun s => (s.id, s.isClashing)) =
        [(11, false), (13, true), (12, false), (21, true)] := by
  have distinct : overlapping.sectionIds.Nodup := by decide +kernel
  exact ⟨distinct, shows_plan distinct lecturesMutating, by decide +kernel⟩

end Timetable
