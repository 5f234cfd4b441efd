import Mathlib.Data.List.Flatten
import Timetable.Proofs.Plan.Selection
import Timetable.Proofs.Store.Answers

/-!
# What a selection does to the courses of the store

The store accepts a list of sections of one course that are of different kinds, flags exactly these
(`Memory.selectSections_eq_ok_iff`) and leaves ids, kinds and every other course as they are. A
course that is flagged so is read without repair (`map_selected_choose`).

`Mirrors` says that a store still has the courses of a plan with their sections, whatever is
selected in it; selecting keeps that (`Mirrors.select`). So the plan that the store answers with can
be read group by group off the store (`Mirrors.chosen?_snapshot`), and a request that a plan accepts
does to a group of the store what was asked for (`Mirrors.chosen?_select`).
-/

namespace Timetable

/-- No two selected sections are of one kind. -/
def CourseRecord.Single (c : CourseRecord) : Prop :=
  ((c.sections.filter (·.selected)).map (typeKey ·.code)).Nodup

instance (c : CourseRecord) : Decidable c.Single := inferInstanceAs (Decidable (List.Nodup _))

namespace Store

/-! ## One course -/

/-- A course with exactly the listed sections selected. -/
def choose (ids : List Int) (c : CourseRecord) : CourseRecord :=
  { c with sections := c.sections.map fun s => Memory.setSelected s (s.id ∈ IdSet.ofList ids) }

theorem outline_choose (ids : List Int) (c : CourseRecord) :
    (choose ids c).outline = c.outline := by
  rw [CourseRecord.outline, choose, List.map_map]
  rfl

theorem single_choose {ids : List Int} {c : CourseRecord}
    (single : ((c.sections.filter (·.id ∈ ids)).map (typeKey ·.code)).Nodup) :
    (choose ids c).Single := by
  have flagged : (choose ids c).sections.filter (·.selected) =
      (c.sections.filter (·.id ∈ ids)).map
        fun s => Memory.setSelected s (s.id ∈ IdSet.ofList ids) := by
    rw [choose, List.filter_map]
    simp [Function.comp_def, Memory.setSelected]
  rw [CourseRecord.Single, flagged, List.map_map]
  exact single

theorem chosen_choose (ids : List Int) (c : CourseRecord) (key : String) :
    (choose ids c).chosen key =
      ((c.outline.filter (·.1 ∈ ids)).filter (·.2 = key)).map Prod.fst := by
  rw [CourseRecord.chosen, CourseRecord.outline, choose, List.filter_map, List.filter_map,
    List.filter_map, List.filter_map, List.map_map, List.map_map]
  simp [Function.comp_def, Memory.setSelected]

/-! ## Reading a course that was flagged -/

/-- When a course is flagged with one section of a kind at most, exactly these are selected in the
course that is read. -/
theorem map_selected_choose {β : Type} (f : Section → β)
    (blind : ∀ (s : Section) (on : Bool) (count : Nat),
      f { s with selected := on, selectedCount := count } = f s)
    {ids : List Int} {r : CourseRecord}
    (single : (((Course.ofRecord r).sections.filter (·.id ∈ ids)).map (·.typeKey)).Nodup) :
    (Course.ofRecord (choose ids r)).selected.map f =
      ((Course.ofRecord r).sections.filter (·.id ∈ ids)).map f := by
  let flagged : SectionRecord → Section := fun s =>
    Section.ofRecord r.id (Memory.setSelected s (s.id ∈ IdSet.ofList ids))
  have on : ((r.sections.map flagged).filter (·.selected)) =
      (r.sections.filter (·.id ∈ ids)).map flagged := by
    rw [List.filter_map]
    refine congrArg _ (List.filter_congr fun s _ => ?_)
    simp [flagged, Section.ofRecord, Memory.setSelected]
  have kept : (Course.ofRecord (choose ids r)).sections = r.sections.map flagged := by
    show Course.keepFirst [] ((r.sections.map fun s => Memory.setSelected s
      (s.id ∈ IdSet.ofList ids)).map (Section.ofRecord r.id)) = _
    rw [List.map_map]
    refine Course.keepFirst_eq_self ?_ (fun _ _ => List.not_mem_nil)
    rw [Course.map_filter_ofRecord (·.typeKey) (fun _ => rfl) (· ∈ ids)] at single
    show (((r.sections.map flagged).filter (·.selected)).map (·.typeKey)).Nodup
    rw [on, List.map_map]
    exact single
  rw [Course.selected, kept, on, List.map_map,
    Course.map_filter_ofRecord f (fun s => blind s false s.selectedCount) (· ∈ ids)]
  exact List.map_congr_left fun s _ => blind (Section.ofRecord r.id s) _ _

theorem typeKeys_choose (ids : List Int) (r : CourseRecord) :
    (Course.ofRecord (choose ids r)).typeKeys = (Course.ofRecord r).typeKeys := by
  have outlines : (Course.ofRecord (choose ids r)).outline = (Course.ofRecord r).outline := by
    rw [Course.outline_ofRecord, Course.outline_ofRecord, outline_choose]
  have kinds := congrArg (List.map Prod.snd) outlines
  rw [Course.outline, Course.outline, List.map_map, List.map_map] at kinds
  exact congrArg List.eraseDups kinds

namespace Memory

variable {m m' : Memory} {id k : Int} {key : String}

/-! ## One course of the store -/

theorem map_updateFirst {β : Type} (f : CourseRecord → β) (change : CourseRecord → CourseRecord)
    (keeps : ∀ c, f (change c) = f c) (courses : List CourseRecord) :
    (updateFirst id change courses).map f = courses.map f := by
  induction courses with
  | nil => rfl
  | cons c rest ih =>
    unfold updateFirst
    split
    · rw [List.map_cons, List.map_cons, keeps]
    · rw [List.map_cons, List.map_cons, ih]

theorem find?_updateFirst (change : CourseRecord → CourseRecord)
    (keeps : ∀ c, (change c).id = c.id) (courses : List CourseRecord) :
    (updateFirst id change courses).find? (·.id = k) =
      if k = id then (courses.find? (·.id = k)).map change else courses.find? (·.id = k) := by
  induction courses with
  | nil => simp [updateFirst]
  | cons c rest ih =>
    unfold updateFirst
    by_cases here : c.id = id
    · by_cases same : k = id
      · simp [here, same, keeps]
      · simp [here, same, keeps, Ne.symm same]
    · by_cases same : k = id
      · subst same
        simpa [here] using ih
      · by_cases found : c.id = k <;> simp_all

theorem repeatedKind?_eq_none_iff {seen : List String} {sections : List SectionRecord} :
    repeatedKind? seen sections = none ↔
      (∀ s ∈ sections, typeKey s.code ∉ seen) ∧ (sections.map (typeKey ·.code)).Nodup := by
  induction sections generalizing seen with
  | nil => simp [repeatedKind?]
  | cons s rest ih =>
    simp only [repeatedKind?, List.map_cons, List.nodup_cons, List.forall_mem_cons]
    by_cases known : typeKey s.code ∈ seen
    · simp [known]
    · rw [if_neg known, ih]
      simp only [List.mem_cons, not_or, List.mem_map, not_exists, not_and]
      grind

/-- A selection is accepted when each listed section is one of the course and no two are of one
kind. It flags the listed sections of the course, and nothing else. -/
theorem selectSections_eq_ok_iff {ids : List Int} :
    m.selectSections id ids = .ok m' ↔
      ∃ c, m.course? id = some c ∧ (∀ i ∈ ids, ∃ s ∈ c.sections, s.id = i) ∧
        ((c.sections.filter (·.id ∈ ids)).map (typeKey ·.code)).Nodup ∧
        m.update id (choose ids) = m' := by
  unfold selectSections
  cases m.course? id with
  | none => simp
  | some c =>
    have listed : (c.sections.filter fun s => s.id ∈ IdSet.ofList ids) =
        c.sections.filter (·.id ∈ ids) := by simp
    cases foreign : (IdSet.ofList ids).toList.find? fun i => !c.sections.any (·.id = i) with
    | some i =>
      have among : i ∈ ids := IdSet.mem_ofList.mp (List.mem_of_find?_eq_some foreign)
      have outside : ∀ s ∈ c.sections, s.id ≠ i := by simpa using List.find?_some foreign
      simp only [foreign]
      grind
    | none =>
      have inside : ∀ i ∈ ids, ∃ s ∈ c.sections, s.id = i := by
        intro i among
        simpa using List.find?_eq_none.mp foreign i (IdSet.mem_ofList.mpr among)
      simp only [foreign, listed]
      cases kinds : repeatedKind? [] (c.sections.filter (·.id ∈ ids)) with
      | some key =>
        have repeated : ¬((c.sections.filter (·.id ∈ ids)).map (typeKey ·.code)).Nodup := by
          intro single
          rw [repeatedKind?_eq_none_iff.mpr ⟨by simp, single⟩] at kinds
          cases kinds
        simp [repeated]
      | none =>
        constructor
        · intro accepted
          have single := (repeatedKind?_eq_none_iff.mp kinds).2
          exact ⟨c, rfl, inside, single, Except.ok.inj accepted⟩
        · rintro ⟨-, -, -, -, rfl⟩
          rfl

/-- A selection that is accepted flags the listed sections of the course, and nothing else. -/
theorem selectSections_eq_ok {ids : List Int} (accepted : m.selectSections id ids = .ok m') :
    m.update id (choose ids) = m' := by
  obtain ⟨c, -, -, -, done⟩ := selectSections_eq_ok_iff.mp accepted
  exact done

theorem course?_choose (ids : List Int) :
    (m.update id (choose ids)).course? k =
      if k = id then (m.course? k).map (choose ids) else m.course? k :=
  find?_updateFirst (choose ids) (fun _ => rfl) m.courses

/-- The selected sections of a type group, if the store has the course. -/
def chosen? (m : Memory) (id : Int) (key : String) : Option (List Int) :=
  (m.course? id).map (·.chosen key)

theorem chosen?_select_other {ids : List Int} (accepted : m.selectSections id ids = .ok m')
    (other : k ≠ id) (key : String) : m'.chosen? k key = m.chosen? k key := by
  rw [← selectSections_eq_ok accepted, chosen?, course?_choose, if_neg other, chosen?]

/-! ## The plan of the store -/

/-- The plan that the store answers with. -/
abbrev plan (m : Memory) : Plan := .ofRecord m.snapshot

section Distinct

variable (courseIds : (m.courses.map (·.id)).Nodup)
include courseIds

theorem nodup_snapshot : ((m.courses.filter m.inScope).map (·.id)).Nodup :=
  (List.filter_sublist.map _).nodup courseIds

theorem courses_plan : m.plan.courses = (m.courses.filter m.inScope).map Course.ofRecord :=
  Plan.courses_ofRecord (nodup_snapshot courseIds)

theorem mem_courses_plan {r : CourseRecord} (member : r ∈ m.courses.filter m.inScope) :
    Course.ofRecord r ∈ m.plan.courses := by
  rw [courses_plan courseIds]
  exact List.mem_map_of_mem member

theorem course?_snapshot (id : Int) :
    m.plan.course? id = ((m.course? id).filter m.inScope).map Course.ofRecord := by
  have part := nodup_snapshot courseIds
  rw [Plan.course?_ofRecord part]
  refine congrArg (Option.map _) ?_
  show (m.courses.filter m.inScope).find? (·.id = id) = _
  cases found : m.course? id with
  | none =>
    have absent := List.find?_eq_none.mp found
    exact List.find?_eq_none.mpr fun c among => absent c (List.mem_filter.mp among).1
  | some c =>
    have member : c ∈ m.courses := List.mem_of_find?_eq_some found
    obtain rfl : c.id = id := by simpa using List.find?_some found
    by_cases inside : m.inScope c = true
    · rw [find?_of_nodup part (List.mem_filter.mpr ⟨member, inside⟩), Option.filter_some,
        if_pos inside]
    · rw [Option.filter_some, if_neg inside]
      refine List.find?_eq_none.mpr fun c' among same => ?_
      obtain ⟨member', inside'⟩ := List.mem_filter.mp among
      obtain rfl := List.inj_on_of_nodup_map courseIds member' member (by simpa using same)
      exact inside inside'

theorem nodup_choose (id : Int) (ids : List Int) :
    ((m.update id (choose ids)).courses.map (·.id)).Nodup := by
  show ((updateFirst id (choose ids) m.courses).map (·.id)).Nodup
  rw [map_updateFirst (·.id) (choose ids) fun _ => rfl]
  exact courseIds

/-- When a course is flagged, no other course of the plan changes. -/
theorem course?_plan_choose {r : CourseRecord} (held : m.course? id = some r)
    (inside : m.inScope r = true) (ids : List Int) (k : Int) :
    (m.update id (choose ids)).plan.course? k =
      if k = id then some (.ofRecord (choose ids r)) else m.plan.course? k := by
  rw [course?_snapshot (nodup_choose courseIds id ids), course?_choose]
  by_cases here : k = id
  · have inside' : (m.update id (choose ids)).inScope (choose ids r) = true := inside
    subst here
    rw [if_pos rfl, if_pos rfl, held, Option.map_some, Option.filter_some, if_pos inside',
      Option.map_some]
  · rw [if_neg here, if_neg here, course?_snapshot courseIds]
    rfl

/-- A section id that does not repeat in the store does not repeat in its plan. -/
theorem sectionIds_snapshot
    (sectionIds : (m.courses.flatMap fun c => c.sections.map (·.id)).Nodup) :
    m.plan.sectionIds.Nodup := by
  have ids : ∀ c : CourseRecord,
      (Course.ofRecord c).sections.map (·.id) = c.sections.map (·.id) := by
    intro c
    rw [Course.ofRecord, Course.map_keepFirst _ fun _ => rfl, List.map_map]
    rfl
  rw [Plan.sectionIds, courses_plan courseIds, List.flatMap_map]
  simp only [ids]
  exact (List.filter_sublist.flatMap _).nodup sectionIds

end Distinct

end Memory

/-- The store has the courses of a plan, in the scope of its answers and with the same sections.
What is selected may differ. -/
structure Mirrors (plan : Plan) (m : Memory) : Prop where
  distinct : (m.courses.map (·.id)).Nodup
  courses : ∀ id c, plan.course? id = some c →
    ∃ r, m.course? id = some r ∧ m.inScope r = true ∧ r.outline = c.outline

theorem Mirrors.of_snapshot {m : Memory} (distinct : (m.courses.map (·.id)).Nodup) :
    Mirrors (Plan.ofRecord m.snapshot) m := by
  refine ⟨distinct, fun id c found => ?_⟩
  rw [Memory.course?_snapshot distinct, Option.map_eq_some_iff] at found
  obtain ⟨r, held, rfl⟩ := found
  obtain ⟨held, inside⟩ := Option.filter_eq_some_iff.mp held
  exact ⟨r, held, inside, (Course.outline_ofRecord r).symm⟩

section Mirrors

variable {plan : Plan} {m m' : Memory} (mirrors : Mirrors plan m) {id : Int} {ids : List Int}
  {c : Course} {key : String} {choice : Option Int} {next : IdSet}
include mirrors

/-- The plan that the store answers with keeps the first selected section of every group. -/
theorem Mirrors.chosen?_snapshot (found : plan.course? id = some c) (key : String) :
    (Plan.ofRecord m.snapshot).chosen? id key = (m.chosen? id key).map (List.take 1) := by
  obtain ⟨r, held, inside, -⟩ := mirrors.courses id c found
  rw [Plan.chosen?, Memory.course?_snapshot mirrors.distinct, Memory.chosen?, held,
    Option.filter_some, if_pos inside]
  simp only [Option.map_some, Course.chosen_ofRecord]

theorem Mirrors.select (accepted : m.selectSections id ids = .ok m') : Mirrors plan m' := by
  obtain rfl := Memory.selectSections_eq_ok accepted
  constructor
  case distinct =>
    exact Memory.nodup_choose mirrors.distinct id ids
  case courses =>
    intro k c found
    obtain ⟨r, held, inside, same⟩ := mirrors.courses k c found
    rw [Memory.course?_choose, held]
    by_cases here : k = id
    · exact ⟨choose ids r, if_pos here, inside, (outline_choose ids r).trans same⟩
    · exact ⟨r, if_neg here, inside, same⟩

/-- What a request sends leaves the group that it names with what was asked for, and every other
group of the course with what the plan holds. -/
theorem Mirrors.chosen?_select (distinct : plan.sectionIds.Nodup)
    (tried : plan.trySelect id key choice = .ok next)
    (accepted : m.selectSections id (plan.courseSelection id next) = .ok m') (k : String) :
    m'.chosen? id k = if k = key then some choice.toList else plan.chosen? id k := by
  obtain ⟨c, found, -, -⟩ := Plan.trySelect_eq_ok_iff.mp tried
  obtain ⟨r, held, -, same⟩ := mirrors.courses id c found
  have group := Plan.group_courseSelection distinct found tried k
  rw [← Memory.selectSections_eq_ok accepted, Memory.chosen?, Memory.course?_choose,
    if_pos rfl, held, Option.map_some, Option.map_some, chosen_choose, same, group, Plan.chosen?,
    found]
  split <;> rfl

end Mirrors

end Store

end Timetable
