import Mathlib.Data.Int.Order.Basic
import Mathlib.Data.List.Sort
import Timetable.Proofs.Plan.Ingestion
import Timetable.Selection

/-!
# What a selection request asks for

A request names one type group of one course, and what is sent to the store is the selection of the
whole course. In a plan in which no section id repeats, the list holds the requested section and,
of the other groups, what the plan has selected (`Plan.Wanted`), so it says for every group what it
is to be (`Plan.group_courseSelection`). The new selection has, of every other course, what is
selected in it (`Plan.mem_trySelect_iff`).
-/

namespace Timetable

theorem IdSet.ext_mem {s t : IdSet} (same : ∀ id, id ∈ s ↔ id ∈ t) : s = t := by
  obtain ⟨members, ascending⟩ := s
  obtain ⟨members', ascending'⟩ := t
  obtain rfl := ascending.eq_of_mem_iff ascending' same
  rfl

theorem count_kinds (sections : List Section) (key : String) :
    (sections.map (·.typeKey)).count key = (sections.filter (·.typeKey = key)).length := by
  rw [List.count, List.countP_map, List.countP_eq_length_filter]
  refine congrArg List.length (List.filter_congr fun s _ => ?_)
  simp [beq_eq_decide]

theorem Course.nodup_kinds_selected (c : Course) : (c.selected.map (·.typeKey)).Nodup :=
  List.pairwise_map.mpr (List.pairwise_filter.mpr c.oneOfEachKind)

theorem Course.filter_group (c : Course) (key : String) :
    (c.group key).filter (·.selected) = c.selected.filter (·.typeKey = key) := by
  rw [group, selected, List.filter_filter, List.filter_filter]
  exact List.filter_congr fun s _ => Bool.and_comm _ _

theorem Course.length_chosen_le_one (c : Course) (key : String) : (c.chosen key).length ≤ 1 := by
  rw [chosen, List.length_map, ← count_kinds]
  exact List.nodup_iff_count_le_one.mp c.nodup_kinds_selected key

namespace Plan

/-- The ids of all sections, course by course. -/
def sectionIds (p : Plan) : List Int := p.courses.flatMap fun c => c.sections.map (·.id)

variable {p : Plan} {c : Course} {key : String} {choice : Option Int}

theorem course?_of_mem (course : c ∈ p.courses) : p.course? c.id = some c :=
  find?_of_nodup p.distinct course

theorem mem_of_course? {courseId : Int} (found : p.course? courseId = some c) :
    c ∈ p.courses ∧ c.id = courseId :=
  ⟨List.mem_of_find?_eq_some found, by simpa using List.find?_some found⟩

theorem exists_course?_iff {P : Course → Prop} :
    (∃ k c, p.course? k = some c ∧ P c) ↔ ∃ c ∈ p.courses, P c := by
  constructor
  · rintro ⟨k, c, found, holds⟩
    exact ⟨c, (mem_of_course? found).1, holds⟩
  · rintro ⟨c, course, holds⟩
    exact ⟨c.id, c, course?_of_mem course, holds⟩

/-- Where no section id repeats, an id belongs to one section of one course. -/
theorem section_eq_of_id (distinct : p.sectionIds.Nodup) {c' : Course} {s s' : Section}
    (course : c ∈ p.courses) (member : s ∈ c.sections) (course' : c' ∈ p.courses)
    (member' : s' ∈ c'.sections) (same : s.id = s'.id) : c = c' ∧ s = s' := by
  have pairs :
      ((p.courses.flatMap fun c => c.sections.map fun s => (c, s)).map (·.2.id)).Nodup := by
    simpa only [List.map_flatMap, List.map_map, Function.comp_def, sectionIds] using distinct
  have among : ∀ {c : Course} {s : Section}, c ∈ p.courses → s ∈ c.sections →
      (c, s) ∈ p.courses.flatMap fun c => c.sections.map fun s => (c, s) :=
    fun course member => List.mem_flatMap.mpr ⟨_, course, List.mem_map.mpr ⟨_, member, rfl⟩⟩
  exact Prod.mk.inj
    (List.inj_on_of_nodup_map pairs (among course member) (among course' member') same)

theorem nodup_ids_of_mem (distinct : p.sectionIds.Nodup) (course : c ∈ p.courses) :
    (c.sections.map (·.id)).Nodup :=
  (List.nodup_flatMap.mp distinct).1 c course

theorem nodup_sections_of_mem (distinct : p.sectionIds.Nodup) (course : c ∈ p.courses) :
    c.sections.Nodup :=
  .of_map _ (nodup_ids_of_mem distinct course)

theorem mem_selectedIds {id : Int} :
    id ∈ p.selectedIds ↔ ∃ c ∈ p.courses, id ∈ c.selected.map (·.id) := by
  rw [selectedIds, IdSet.mem_ofList, selection, List.map_flatMap, List.mem_flatMap]
  simp only [List.map_map, Function.comp_def]

/-- A section is in the selection exactly when its own flag is set. -/
theorem mem_selectedIds_iff (distinct : p.sectionIds.Nodup) {s : Section} (course : c ∈ p.courses)
    (member : s ∈ c.sections) : s.id ∈ p.selectedIds ↔ s.selected = true := by
  rw [mem_selectedIds]
  constructor
  · rintro ⟨c', course', listed⟩
    obtain ⟨s', selected', same⟩ := List.mem_map.mp listed
    obtain ⟨member', on⟩ := List.mem_filter.mp selected'
    obtain ⟨rfl, rfl⟩ := section_eq_of_id distinct course' member' course member same
    exact on
  · intro on
    exact ⟨c, course, List.mem_map_of_mem (List.mem_filter.mpr ⟨member, on⟩)⟩

/-! ## Requests -/

theorem checkChoice_eq_ok_iff :
    checkChoice c key choice = .ok () ↔
      ∀ id, choice = some id → ∃ s, c.section? id = some s ∧ s.typeKey = key := by
  cases choice with
  | none => simp [checkChoice]
  | some id =>
    cases found : c.section? id with
    | none => simp [checkChoice, found]
    | some s => by_cases same : s.typeKey = key <;> simp [checkChoice, found, same]

/-- The requested section is one of the course, and of the kind that was named. -/
theorem exists_of_checkChoice {id : Int} (checked : checkChoice c key (some id) = .ok ()) :
    ∃ s ∈ c.sections, s.id = id ∧ s.typeKey = key := by
  obtain ⟨s, found, same⟩ := checkChoice_eq_ok_iff.mp checked id rfl
  exact ⟨s, List.mem_of_find?_eq_some found, by simpa using List.find?_some found, same⟩

theorem trySelect_eq_ok_iff {courseId : Int} {next : IdSet} :
    p.trySelect courseId key choice = .ok next ↔
      ∃ c, p.course? courseId = some c ∧ checkChoice c key choice = .ok () ∧
        p.replaceGroup c key choice = next := by
  unfold trySelect
  cases p.course? courseId with
  | none => simp
  | some c => cases checked : checkChoice c key choice <;> simp [Except.map, checked]

/-- A section is to be selected after a request: it is the requested one, or it is selected and of
another group. -/
def Wanted (key : String) (choice : Option Int) (s : Section) : Prop :=
  choice = some s.id ∨ s.selected = true ∧ s.typeKey ≠ key

instance (key : String) (choice : Option Int) (s : Section) : Decidable (Wanted key choice s) :=
  inferInstanceAs (Decidable (_ ∨ _))

/-- The new selection has of every course the sections that are to be selected. -/
theorem mem_replaceGroup (distinct : p.sectionIds.Nodup) {s : Section} (course : c ∈ p.courses)
    (member : s ∈ c.sections) : s.id ∈ p.replaceGroup c key choice ↔ Wanted key choice s := by
  have replaced : s.id ∈ (c.selected.filter (·.typeKey = key)).map (·.id) ↔
      s.selected = true ∧ s.typeKey = key := by
    constructor
    · intro among
      obtain ⟨s', member', same⟩ := List.mem_map.mp among
      obtain ⟨selected', keyed⟩ := List.mem_filter.mp member'
      obtain ⟨among', on⟩ := List.mem_filter.mp selected'
      obtain ⟨-, rfl⟩ := section_eq_of_id distinct course among' course member same
      exact ⟨on, by simpa using keyed⟩
    · rintro ⟨on, keyed⟩
      exact List.mem_map_of_mem
        (List.mem_filter.mpr ⟨List.mem_filter.mpr ⟨member, on⟩, by simpa using keyed⟩)
  have kept : s.id ∈ (p.selectedIds.filter fun id =>
      !((c.selected.filter (·.typeKey = key)).map (·.id)).contains id) ↔
        s.selected = true ∧ s.typeKey ≠ key := by
    rw [IdSet.mem_filter, mem_selectedIds_iff distinct course member, Bool.not_eq_true',
      ← Bool.not_eq_true, List.contains_iff_mem, replaced]
    exact ⟨fun h => ⟨h.1, fun keyed => h.2 ⟨h.1, keyed⟩⟩, fun h => ⟨h.1, fun same => h.2 same.2⟩⟩
  unfold replaceGroup Wanted
  cases choice with
  | none => simpa using kept
  | some id => rw [IdSet.mem_insert, kept, Option.some_inj, eq_comm]

/-- Of any other course it has the sections that are selected. -/
theorem mem_replaceGroup_other (distinct : p.sectionIds.Nodup) (course : c ∈ p.courses)
    (checked : checkChoice c key choice = .ok ()) {c' : Course} {s : Section}
    (course' : c' ∈ p.courses) (member : s ∈ c'.sections) (other : c' ≠ c) :
    s.id ∈ p.replaceGroup c key choice ↔ s.selected = true := by
  have apart : ∀ t ∈ c.sections, t.id ≠ s.id := fun t among same =>
    other (section_eq_of_id distinct course' member course among same.symm).1
  have unreplaced : s.id ∉ (c.selected.filter (·.typeKey = key)).map (·.id) := by
    rintro among
    obtain ⟨t, replaced, same⟩ := List.mem_map.mp among
    exact apart t (List.mem_filter.mp (List.mem_filter.mp replaced).1).1 same
  have kept : s.id ∈ (p.selectedIds.filter fun id =>
      !((c.selected.filter (·.typeKey = key)).map (·.id)).contains id) ↔ s.selected = true := by
    rw [IdSet.mem_filter, mem_selectedIds_iff distinct course' member, Bool.not_eq_true',
      ← Bool.not_eq_true, List.contains_iff_mem]
    exact and_iff_left unreplaced
  unfold replaceGroup
  cases choice with
  | none => exact kept
  | some id =>
    obtain ⟨t, among, same, -⟩ := exists_of_checkChoice checked
    rw [IdSet.mem_insert, kept]
    exact or_iff_right fun asked => apart t among (same.trans asked.symm)

theorem exists_of_mem_replaceGroup (course : c ∈ p.courses)
    (checked : checkChoice c key choice = .ok ()) {id : Int}
    (among : id ∈ p.replaceGroup c key choice) : ∃ c' ∈ p.courses, ∃ s ∈ c'.sections, s.id = id := by
  have kept : ∀ {keep : Int → Bool}, id ∈ p.selectedIds.filter keep →
      ∃ c' ∈ p.courses, ∃ s ∈ c'.sections, s.id = id := by
    intro keep kept
    obtain ⟨c', course', listed⟩ := mem_selectedIds.mp (IdSet.mem_filter.mp kept).1
    obtain ⟨s, selected, same⟩ := List.mem_map.mp listed
    exact ⟨c', course', s, (List.mem_filter.mp selected).1, same⟩
  unfold replaceGroup at among
  cases choice with
  | none => exact kept among
  | some asked =>
    rcases IdSet.mem_insert.mp among with rfl | before
    · obtain ⟨s, member, same, -⟩ := exists_of_checkChoice checked
      exact ⟨c, course, s, member, same⟩
    · exact kept before

/-! ## Groups -/

section Groups

variable (ids : (c.sections.map (·.id)).Nodup) (checked : checkChoice c key choice = .ok ())
include ids checked

/-- In the group of the request the requested section is to be selected, and no other. -/
theorem wanted_group_self :
    (c.sections.filter fun s => Wanted key choice s ∧ s.typeKey = key).map (·.id) =
      choice.toList := by
  cases choice with
  | none =>
    have none_wanted : (c.sections.filter fun s => Wanted key none s ∧ s.typeKey = key) = [] := by
      simp [Wanted]
    rw [none_wanted]
    rfl
  | some id =>
    obtain ⟨s, member, rfl, rfl⟩ := exists_of_checkChoice checked
    have alone : ∀ t ∈ c.sections,
        Wanted s.typeKey (some s.id) t ∧ t.typeKey = s.typeKey ↔ t.id = s.id := by
      intro t among
      constructor
      · rintro ⟨same | ⟨-, other⟩, keyed⟩
        · exact (Option.some.inj same).symm
        · exact absurd keyed other
      · intro same
        obtain rfl := List.inj_on_of_nodup_map ids among member same
        exact ⟨.inl rfl, rfl⟩
    have only : (c.sections.filter fun t =>
        Wanted s.typeKey (some s.id) t ∧ t.typeKey = s.typeKey) = [s] := by
      rw [← filter_of_nodup ids member]
      exact List.filter_congr fun t among => decide_eq_decide.mpr (alone t among)
    rw [only]
    rfl

/-- In every other group the sections that are selected are to be selected. -/
theorem wanted_group_other {k : String} (other : k ≠ key) :
    (c.sections.filter fun s => Wanted key choice s ∧ s.typeKey = k).map (·.id) = c.chosen k := by
  rw [Course.chosen, Course.selected, List.filter_filter]
  refine congrArg (List.map _) (List.filter_congr fun t among => ?_)
  by_cases keyed : t.typeKey = k
  · -- The requested section is of another kind.
    have unasked : choice ≠ some t.id := by
      rintro rfl
      obtain ⟨s, member, same, of_key⟩ := exists_of_checkChoice checked
      obtain rfl := List.inj_on_of_nodup_map ids member among same
      exact other (keyed.symm.trans of_key)
    simp [Wanted, keyed, other, unasked]
  · simp [keyed]

/-- No two sections that are to be selected are of one kind. -/
theorem nodup_kinds_wanted :
    ((c.sections.filter fun s => Wanted key choice s).map (·.typeKey)).Nodup := by
  refine List.nodup_iff_count_le_one.mpr fun k => ?_
  have group : ((c.sections.filter fun s => Wanted key choice s).map (·.typeKey)).count k =
      ((c.sections.filter fun s => Wanted key choice s ∧ s.typeKey = k).map (·.id)).length := by
    rw [count_kinds, List.filter_filter, List.length_map]
    simp [Bool.and_comm]
  rw [group]
  by_cases same : k = key
  · subst same
    rw [wanted_group_self ids checked]
    cases choice <;> simp
  · rw [wanted_group_other ids checked same]
    exact c.length_chosen_le_one k

end Groups

/-! ## What is sent -/

theorem mem_courseSelection {courseId : Int} (found : p.course? courseId = some c) {next : IdSet}
    {s : Section} (member : s ∈ c.sections) :
    s.id ∈ p.courseSelection courseId next ↔ s.id ∈ next := by
  simp only [courseSelection, found, List.mem_filter, decide_eq_true_iff]
  exact and_iff_right (List.mem_map_of_mem member)

theorem courseSelection_of_course? {courseId : Int} (found : p.course? courseId = some c)
    (next : IdSet) :
    p.courseSelection courseId next = (c.sections.filter (·.id ∈ next)).map (·.id) := by
  simp only [courseSelection, found, List.filter_map]
  rfl

theorem map_filter_courseSelection {courseId : Int} (found : p.course? courseId = some c)
    {next : IdSet} : (c.sections.filter (·.id ∈ p.courseSelection courseId next)).map (·.id) =
      p.courseSelection courseId next := by
  have sent : (c.sections.filter (·.id ∈ p.courseSelection courseId next)) =
      c.sections.filter (·.id ∈ next) :=
    List.filter_congr fun s member => decide_eq_decide.mpr (mem_courseSelection found member)
  rw [sent, courseSelection_of_course? found]

/-- The list that is sent has, in section order, the sections that are to be selected. -/
theorem courseSelection_eq (distinct : p.sectionIds.Nodup) {courseId : Int} {next : IdSet}
    (found : p.course? courseId = some c) (tried : p.trySelect courseId key choice = .ok next) :
    p.courseSelection courseId next =
      (c.sections.filter fun s => Wanted key choice s).map (·.id) := by
  obtain ⟨course, -⟩ := mem_of_course? found
  obtain ⟨c', found', -, rfl⟩ := trySelect_eq_ok_iff.mp tried
  obtain rfl : c = c' := Option.some.inj (found.symm.trans found')
  rw [courseSelection_of_course? found]
  refine congrArg _ (List.filter_congr fun s member => ?_)
  exact decide_eq_decide.mpr (mem_replaceGroup distinct course member)

/-- The new selection, course by course: what is sent for the course of the request, and of every
other course what is selected. -/
theorem mem_trySelect_iff (distinct : p.sectionIds.Nodup) {courseId : Int} {next : IdSet}
    (tried : p.trySelect courseId key choice = .ok next) {id : Int} :
    id ∈ next ↔ ∃ k c, p.course? k = some c ∧
      id ∈ if k = courseId then p.courseSelection courseId next else c.selected.map (·.id) := by
  obtain ⟨c, found, checked, asked⟩ := trySelect_eq_ok_iff.mp tried
  obtain ⟨course, here⟩ := mem_of_course? found
  have outside : ∀ c' ∈ p.courses, c'.id ≠ courseId → ∀ s ∈ c'.sections,
      (s.id ∈ next ↔ s.selected = true) := by
    intro c' course' other s member
    rw [← asked]
    refine mem_replaceGroup_other distinct course checked course' member ?_
    rintro rfl
    exact other here
  constructor
  · intro among
    obtain ⟨c', course', s, member, rfl⟩ := exists_of_mem_replaceGroup course checked (asked ▸ among)
    have found' := course?_of_mem course'
    refine ⟨c'.id, c', found', ?_⟩
    by_cases same : c'.id = courseId
    · rw [if_pos same]
      exact (mem_courseSelection (same ▸ found') member).mpr among
    · rw [if_neg same]
      have on := (outside c' course' same s member).mp among
      exact List.mem_map_of_mem (List.mem_filter.mpr ⟨member, on⟩)
  · rintro ⟨k, c', found', listed⟩
    by_cases same : k = courseId
    · rw [if_pos same, courseSelection, found] at listed
      exact of_decide_eq_true (List.mem_filter.mp listed).2
    · rw [if_neg same] at listed
      obtain ⟨course', rfl⟩ := mem_of_course? found'
      obtain ⟨s, selected, rfl⟩ := List.mem_map.mp listed
      obtain ⟨member, on⟩ := List.mem_filter.mp selected
      exact (outside c' course' same s member).mpr on

/-- For each group of the course the list that is sent says which sections are to be selected: the
requested one in the group of the request, and in every other group those that are. -/
theorem group_courseSelection (distinct : p.sectionIds.Nodup) {courseId : Int} {next : IdSet}
    (found : p.course? courseId = some c) (tried : p.trySelect courseId key choice = .ok next)
    (k : String) :
    ((c.outline.filter (·.1 ∈ p.courseSelection courseId next)).filter (·.2 = k)).map Prod.fst =
      if k = key then choice.toList else c.chosen k := by
  obtain ⟨course, -⟩ := mem_of_course? found
  obtain ⟨c', found', checked, rfl⟩ := trySelect_eq_ok_iff.mp tried
  obtain rfl : c = c' := Option.some.inj (found.symm.trans found')
  have sent : ∀ s ∈ c.sections,
      s.id ∈ p.courseSelection courseId (p.replaceGroup c key choice) ↔ Wanted key choice s :=
    fun s member => (mem_courseSelection found member).trans (mem_replaceGroup distinct course member)
  have group : ((c.outline.filter (·.1 ∈ p.courseSelection courseId
        (p.replaceGroup c key choice))).filter (·.2 = k)).map Prod.fst =
      (c.sections.filter fun s => Wanted key choice s ∧ s.typeKey = k).map (·.id) := by
    rw [Course.outline, List.filter_map, List.filter_map, List.map_map, List.filter_filter]
    refine congrArg (List.map _) (List.filter_congr fun s member => ?_)
    simp [sent s member, and_comm]
  rw [group]
  have ids := nodup_ids_of_mem distinct course
  by_cases same : k = key
  · subst same
    rw [if_pos rfl]
    exact wanted_group_self ids checked
  · rw [if_neg same]
    exact wanted_group_other ids checked same

end Plan

end Timetable
