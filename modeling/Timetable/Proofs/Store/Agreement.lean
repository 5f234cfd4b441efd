import Timetable.Proofs.Planner.Operations
import Timetable.Proofs.Store.Selection

/-!
# Planner and store agree on a selection

What the planner sends for a change that it accepts passes the checks of the store, which looks at
records and not at the courses that were read from them (`Memory.selectSections_sent`). The store
then differs from the one before in one course, and the plan that is read from its answer selects
in that course what was sent and in every other course what it did (`Memory.selectedIds_sent`).
Main statement: `Planner.beginSelection_agrees`.
-/

namespace Timetable

namespace Store.Memory

variable {m : Memory} {id : Int} {key : String} {choice : Option Int} {next : IdSet}

section Sent

variable (courseIds : (m.courses.map (·.id)).Nodup)
  (tried : m.plan.trySelect id key choice = .ok next)
include courseIds tried

theorem exists_of_trySelect :
    ∃ r, m.course? id = some r ∧ m.inScope r = true ∧
      m.plan.course? id = some (.ofRecord r) := by
  obtain ⟨c, found, -, -⟩ := Plan.trySelect_eq_ok_iff.mp tried
  have read := course?_snapshot courseIds id
  rw [found] at read
  obtain ⟨r, held, rfl⟩ := Option.map_eq_some_iff.mp read.symm
  obtain ⟨held, inside⟩ := Option.filter_eq_some_iff.mp held
  exact ⟨r, held, inside, found⟩

variable (sectionIds : (m.courses.flatMap fun c => c.sections.map (·.id)).Nodup)
include sectionIds

/-- What is sent for a request has one section of a kind, in the course that is read and so in the
record of it. -/
theorem nodup_kinds_sent {r : CourseRecord} (found : m.plan.course? id = some (.ofRecord r)) :
    (((Course.ofRecord r).sections.filter (·.id ∈ m.plan.courseSelection id next)).map
      (·.typeKey)).Nodup := by
  have distinct := sectionIds_snapshot courseIds sectionIds
  obtain ⟨course, -⟩ := Plan.mem_of_course? found
  obtain ⟨c, found', checked, rfl⟩ := Plan.trySelect_eq_ok_iff.mp tried
  obtain rfl : _ = c := Option.some.inj (found.symm.trans found')
  have sent : ((Course.ofRecord r).sections.filter fun s =>
      s.id ∈ m.plan.courseSelection id (m.plan.replaceGroup (.ofRecord r) key choice)) =
        (Course.ofRecord r).sections.filter fun s => Plan.Wanted key choice s :=
    List.filter_congr fun s member => decide_eq_decide.mpr
      ((Plan.mem_courseSelection found member).trans (Plan.mem_replaceGroup distinct course member))
  rw [sent]
  exact Plan.nodup_kinds_wanted (Plan.nodup_ids_of_mem distinct course) checked

theorem selectSections_sent :
    m.selectSections id (m.plan.courseSelection id next) =
      .ok (m.update id (choose (m.plan.courseSelection id next))) := by
  obtain ⟨r, held, -, found⟩ := exists_of_trySelect courseIds tried
  have kinds := nodup_kinds_sent courseIds tried sectionIds found
  refine selectSections_eq_ok_iff.mpr ⟨r, held, ?_, ?_, rfl⟩
  · intro i sent
    have among : i ∈ (Course.ofRecord r).sections.map (·.id) := by
      simp only [Plan.courseSelection, found] at sent
      exact (List.mem_filter.mp sent).1
    rw [Course.ofRecord, Course.map_keepFirst _ fun _ => rfl, List.map_map] at among
    exact List.mem_map.mp among
  · rw [Course.map_filter_ofRecord (·.typeKey) (fun _ => rfl)
      (· ∈ m.plan.courseSelection id next)] at kinds
    exact kinds

theorem selectedIds_sent :
    (m.update id (choose (m.plan.courseSelection id next))).plan.selectedIds = next := by
  have distinct := sectionIds_snapshot courseIds sectionIds
  obtain ⟨r, held, inside, found⟩ := exists_of_trySelect courseIds tried
  have kinds := nodup_kinds_sent courseIds tried sectionIds found
  have flagged := (map_selected_choose (·.id) (fun _ _ _ => rfl) kinds).trans
    (Plan.map_filter_courseSelection found)
  refine IdSet.ext_mem fun i => ?_
  rw [Plan.mem_selectedIds, ← Plan.exists_course?_iff, Plan.mem_trySelect_iff distinct tried]
  -- Both sides are told course by course, and differ at most in the course of the request.
  refine exists_congr fun k => ?_
  rw [course?_plan_choose courseIds held inside]
  by_cases here : k = id
  · subst here
    simp only [↓reduceIte, found, Option.some.injEq, exists_eq_left', flagged]
  · simp only [if_neg here]

/-- After a selection has been served, the plan that is read has in the group of the request what
was asked for, and in every other group what it had. -/
theorem chosen?_sent (k : Int) (kind : String) :
    (m.update id (choose (m.plan.courseSelection id next))).plan.chosen? k kind =
      if k = id ∧ kind = key then some choice.toList else m.plan.chosen? k kind := by
  have distinct := sectionIds_snapshot courseIds sectionIds
  obtain ⟨r, held, inside, found⟩ := exists_of_trySelect courseIds tried
  have accepted := selectSections_sent courseIds tried sectionIds
  by_cases here : k = id
  · subst here
    have mirrors := Mirrors.of_snapshot courseIds
    have answered := (mirrors.select accepted).chosen?_snapshot found kind
    rw [mirrors.chosen?_select distinct tried accepted kind] at answered
    rw [answered]
    by_cases same : kind = key
    · subst same
      cases choice <;> simp
    · -- Reading keeps one section of a group, and the plan has no second one.
      have single := (Course.ofRecord r).length_chosen_le_one kind
      rw [if_neg same, if_neg (not_and_of_not_right _ same), Plan.chosen?, found, Option.map_some,
        Option.map_some, List.take_of_length_le single]
  · rw [if_neg (not_and_of_not_left _ here), Plan.chosen?,
      course?_plan_choose courseIds held inside, if_neg here]
    rfl

end Sent

end Store.Memory

/-- A selection change comes to what it is meant to be, from the plan on which it was begun to the
plan that is read from the answer: what is sent are, in section order, the sections that stay or
become selected, and what is selected afterwards is what the plan said it would be, so the requested
group has the requested section and no other group has changed. -/
structure Plan.Agrees (plan : Plan) (courseId : Int) (key : String) (choice : Option Int)
    (sent : List Int) (answered : Plan) : Prop where
  payload : ∃ c, plan.course? courseId = some c ∧
    sent = (c.sections.filter fun s => Wanted key choice s).map (·.id)
  selected : plan.trySelect courseId key choice = .ok answered.selectedIds
  requested : answered.chosen? courseId key = some choice.toList
  others : ∀ id kind, ¬(id = courseId ∧ kind = key) →
    answered.chosen? id kind = plan.chosen? id kind

/-- A store whose plan the planner holds serves every selection change that the planner begins, and
they agree on what is selected. -/
theorem Planner.beginSelection_agrees {p p' : Planner} {m : Store.Memory}
    {courseId : Int} {key : String} {choice : Option Int} {pending : PendingSelection}
    (courseIds : (m.courses.map (·.id)).Nodup)
    (sectionIds : (m.courses.flatMap fun c => c.sections.map (·.id)).Nodup)
    (held : p.plan = .ofRecord m.snapshot)
    (begun : p.beginSelection courseId key choice = .ok (pending, p')) :
    ∃ answer, (m.serve (.selectSections pending.courseId pending.sectionIds)).1 = .ok answer ∧
      p.plan.Agrees courseId key choice pending.sectionIds (.ofRecord answer) := by
  obtain ⟨-, -, next, tried, rfl, -⟩ := beginSelection_eq_ok_iff.mp begun
  rw [held] at tried ⊢
  have accepted := Store.Memory.selectSections_sent courseIds tried sectionIds
  have distinct := Store.Memory.sectionIds_snapshot courseIds sectionIds
  obtain ⟨r, -, -, found⟩ := Store.Memory.exists_of_trySelect courseIds tried
  have chosen := Store.Memory.chosen?_sent courseIds tried sectionIds
  refine ⟨_, congrArg (fun changed => (m.answerPlan changed).1) accepted, ?_⟩
  constructor
  case payload => exact ⟨_, found, Plan.courseSelection_eq distinct found tried⟩
  case selected =>
    rw [tried]
    exact congrArg _ (Store.Memory.selectedIds_sent courseIds tried sectionIds).symm
  case requested => exact (chosen courseId key).trans (if_pos ⟨rfl, rfl⟩)
  case others => exact fun id kind other => (chosen id kind).trans (if_neg other)

/-- A store that has two lectures of a course selected. -/
def twoLectures : Store.Memory where
  courses :=
    [{ id := 1, code := "CS 1713", term := "202620"
       sections :=
         [{ id := 11, courseId := 1, code := "L1", selected := true },
          { id := 12, courseId := 1, code := "L2", selected := true },
          { id := 13, courseId := 1, code := "R1", selected := true }] }]
  catalog := []
  term := none
  lastId := 13

/-- A planner that has loaded the plan of this store, with the first lecture only. -/
def oneLecture : Planner :=
  let (ticket, p) := Planner.new.beginLoad none
  (p.complete ticket (.ok twoLectures.snapshot)).2

theorem beginSelection_agrees_repaired :
    (twoLectures.courses.map (·.id)).Nodup ∧
      (twoLectures.courses.flatMap fun c => c.sections.map (·.id)).Nodup ∧
      oneLecture.plan = .ofRecord twoLectures.snapshot ∧
      ∃ pending p', oneLecture.beginSelection 1 "R" none = .ok (pending, p') ∧
        pending.sectionIds = [11] ∧
        ∃ answer, (twoLectures.serve (.selectSections 1 [11])).1 = .ok answer ∧
          oneLecture.plan.Agrees 1 "R" none [11] (.ofRecord answer) := by
  have courseIds : (twoLectures.courses.map (·.id)).Nodup := by decide
  have sectionIds : (twoLectures.courses.flatMap fun c => c.sections.map (·.id)).Nodup := by decide
  have held : oneLecture.plan = .ofRecord twoLectures.snapshot := rfl
  have begun : oneLecture.beginSelection 1 "R" none = .ok _ := rfl
  have agrees := Planner.beginSelection_agrees courseIds sectionIds held begun
  exact ⟨courseIds, sectionIds, held, _, _, begun, rfl, agrees⟩

end Timetable
