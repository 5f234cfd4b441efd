import Timetable.Proofs.Plan.Persistence

/-!
# The normal form of records

A record is in normal form when there is nothing to repair in it (`PlanRecord.Normal`). Reading what
was written gives a plan back as it was, since each of its sections is what its own record is read
as. So the record of a plan that was read is in normal form, and conversely a record comes back from
being read and written only when it was in normal form before (`Plan.normal_form`). Each level of a
record, section, course and plan, has its own normal form and its own such equivalence.
-/

namespace Timetable

/-- What is undone in each element of a list is undone in the list. -/
theorem map_map_eq_self {α β : Type} {f : α → β} {g : β → α} {xs : List α}
    (back : ∀ x ∈ xs, g (f x) = x) : (xs.map f).map g = xs := by
  rw [List.map_map]
  exact (List.map_congr_left back).trans (List.map_id xs)

/-! ## Sections -/

/-- The section names its course, its capacity is none or positive, and its counters are numbers
that are not negative. -/
structure SectionRecord.Normal (courseId : Int) (r : SectionRecord) : Prop where
  owner : r.courseId = courseId
  capacity : ∀ n, r.capacity = some n → 0 < n
  selectedCount : ∃ n, r.selectedCount = some n ∧ 0 ≤ n
  enrolled : ∃ n, r.enrolled = some n ∧ 0 ≤ n

namespace Section

theorem map_bound_eq_iff {capacity : Option Int} :
    (bound capacity).map Int.ofNat = capacity ↔ ∀ n, capacity = some n → 0 < n := by
  cases capacity with
  | none => simp [bound]
  | some value =>
    unfold bound
    by_cases positive : 0 < value
    · have same : (value.toNat : Int) = value := Int.toNat_of_nonneg (Int.le_of_lt positive)
      simp [positive, same]
    · simp [positive]

theorem some_counter_eq_iff {count : Option Int} :
    some (counter count : Int) = count ↔ ∃ n, count = some n ∧ 0 ≤ n := by
  cases count with
  | none => simp
  | some value =>
    unfold counter
    rw [Option.some.injEq, Int.toNat_eq_max]
    constructor
    · intro same
      exact ⟨value, rfl, by omega⟩
    · rintro ⟨n, ⟨⟩, nonneg⟩
      omega

theorem toRecord_ofRecord_iff {courseId : Int} {r : SectionRecord} :
    (ofRecord courseId r).toRecord = r ↔ r.Normal courseId := by
  obtain ⟨id, owner, code, days, times, capacity, selectedCount, enrolled, faculty, room, on⟩ := r
  -- All other fields are written as they were read.
  simp only [ofRecord, toRecord, SectionRecord.mk.injEq, true_and, and_true, map_bound_eq_iff,
    some_counter_eq_iff]
  constructor
  · rintro ⟨rfl, bounded, counted, counted'⟩
    exact ⟨rfl, bounded, counted, counted'⟩
  · rintro ⟨rfl, bounded, counted, counted'⟩
    exact ⟨rfl, bounded, counted, counted'⟩

end Section

/-! ## Courses -/

/-- Every section is in normal form, and no two selected ones are of one kind. -/
structure CourseRecord.Normal (r : CourseRecord) : Prop where
  sections : ∀ s ∈ r.sections, s.Normal r.id
  single : r.sections.Pairwise fun a b =>
    a.selected = true → b.selected = true → typeKey a.code ≠ typeKey b.code

namespace Course

theorem ofRecord_toRecord {c : Course} (faithful : c.Faithful) : ofRecord c.toRecord = c := by
  have read : (c.sections.map Section.toRecord).map (Section.ofRecord c.id) = c.sections :=
    map_map_eq_self faithful
  have kept : keepFirst [] c.sections = c.sections :=
    keepFirst_eq_self c.nodup_kinds_selected fun _ _ => List.not_mem_nil
  obtain ⟨id, code, term, title, sections, single⟩ := c
  simp only [ofRecord, toRecord, mk.injEq, true_and] at read kept ⊢
  rw [read, kept]

/-- What a course is written as is in normal form. -/
theorem normal_toRecord {c : Course} (faithful : c.Faithful) : c.toRecord.Normal := by
  constructor
  case sections =>
    intro x among
    obtain ⟨s, member, rfl⟩ := List.mem_map.mp among
    apply Section.toRecord_ofRecord_iff.mp
    exact congrArg Section.toRecord (faithful s member)
  case single =>
    apply List.pairwise_map.mpr
    refine c.oneOfEachKind.imp_of_mem ?_
    intro a b member member' apart on on'
    have kind : ∀ s ∈ c.sections, typeKey s.toRecord.code = s.typeKey :=
      fun s member => congrArg Section.typeKey (faithful s member)
    rw [kind a member, kind b member']
    exact apart on on'

theorem toRecord_ofRecord_iff {r : CourseRecord} : (ofRecord r).toRecord = r ↔ r.Normal := by
  constructor
  · intro same
    exact same ▸ normal_toRecord (faithful_ofRecord r)
  · rintro ⟨sections, single⟩
    have kept : keepFirst [] (r.sections.map (Section.ofRecord r.id)) =
        r.sections.map (Section.ofRecord r.id) := by
      refine keepFirst_eq_self ?_ fun _ _ => List.not_mem_nil
      apply List.pairwise_map.mpr
      apply List.pairwise_filter.mpr
      exact List.pairwise_map.mpr single
    have written : (r.sections.map (Section.ofRecord r.id)).map Section.toRecord = r.sections :=
      map_map_eq_self fun s member => Section.toRecord_ofRecord_iff.mpr (sections s member)
    obtain ⟨id, code, term, title, sections⟩ := r
    simp only [ofRecord, toRecord, CourseRecord.mk.injEq, true_and] at kept written ⊢
    rw [kept, written]

end Course

/-! ## Plans -/

/-- No course id repeats, and every course is in normal form. -/
structure PlanRecord.Normal (r : PlanRecord) : Prop where
  distinct : (r.courses.map (·.id)).Nodup
  courses : ∀ c ∈ r.courses, c.Normal

namespace Plan

theorem ofRecord_toRecord {p : Plan} (faithful : ∀ c ∈ p.courses, c.Faithful) :
    ofRecord p.toRecord = p := by
  have distinct : (p.toRecord.courses.map (·.id)).Nodup := by
    rw [toRecord, List.map_map]
    exact p.distinct
  have courses : (ofRecord p.toRecord).courses = p.courses := by
    rw [courses_ofRecord distinct, toRecord]
    exact map_map_eq_self fun c member => Course.ofRecord_toRecord (faithful c member)
  obtain ⟨term, held, unique⟩ := p
  exact Plan.mk.injEq .. |>.mpr ⟨rfl, courses⟩

theorem normal_toRecord {p : Plan} (faithful : ∀ c ∈ p.courses, c.Faithful) :
    p.toRecord.Normal := by
  constructor
  case distinct =>
    rw [toRecord, List.map_map]
    exact p.distinct
  case courses =>
    intro x among
    obtain ⟨c, member, rfl⟩ := List.mem_map.mp among
    exact Course.normal_toRecord (faithful c member)

theorem toRecord_ofRecord_iff {r : PlanRecord} : (ofRecord r).toRecord = r ↔ r.Normal := by
  constructor
  · intro same
    exact same ▸ normal_toRecord (faithful_ofRecord r)
  · rintro ⟨distinct, normal⟩
    have courses : (ofRecord r).courses.map Course.toRecord = r.courses := by
      rw [courses_ofRecord distinct]
      exact map_map_eq_self fun c member => Course.toRecord_ofRecord_iff.mpr (normal c member)
    obtain ⟨term, held⟩ := r
    exact PlanRecord.mk.injEq .. |>.mpr ⟨rfl, courses⟩

/-- A plan that was read comes back from being written and read, whatever the record was. So reading
and writing twice does the same as once. A record comes back from being read and written exactly
when it is in normal form. -/
theorem normal_form (r : PlanRecord) :
    ofRecord (ofRecord r).toRecord = ofRecord r ∧
      (ofRecord (ofRecord r).toRecord).toRecord = (ofRecord r).toRecord ∧
      ((ofRecord r).toRecord = r ↔ r.Normal) := by
  have back : ofRecord (ofRecord r).toRecord = ofRecord r := ofRecord_toRecord (faithful_ofRecord r)
  exact ⟨back, congrArg toRecord back, toRecord_ofRecord_iff⟩

end Plan

end Timetable
