import Timetable.Proofs.Plan.Selection

/-!
# Selections that are persisted

A selection request only says what is to be selected. When its answer is written into the record of
the plan and the record is read again, the plan that comes back is the plan that there was with the
flags of the answer (`Course.sections_reread`): what is selected for a request has one section of a
kind at most, so reading repairs nothing. This holds after any number of requests, granted or
refused. Main statement: `Plan.selections_obeyed`.
-/

namespace Timetable

/-- What is asked for one type group of a course: a section, or nothing. -/
structure SelectionRequest where
  courseId : Int
  key : String
  choice : Option Int

/-- The request is for this course, and what it asks for is there. -/
def SelectionRequest.IsFor (q : SelectionRequest) (c : Course) : Prop :=
  c.id = q.courseId ∧ Plan.checkChoice c q.key q.choice = .ok ()

/-! ## Reading what was written -/

theorem Section.ofRecord_toRecord (courseId : Int) (r : SectionRecord) :
    ofRecord courseId (ofRecord courseId r).toRecord = ofRecord courseId r := by
  have bounds : bound ((bound r.capacity).map Int.ofNat) = bound r.capacity := by
    cases capacity : r.capacity with
    | none => rfl
    | some n =>
      by_cases positive : 0 < n
      · have back : 0 < (n.toNat : Int) := by omega
        simp only [bound, if_pos positive, Option.map_some, Int.ofNat_eq_natCast, if_pos back,
          Int.toNat_natCast]
      · simp only [bound, if_neg positive, Option.map_none]
  simp only [ofRecord, toRecord, bounds]
  rfl

/-- The section with the flag that a selection gives it. -/
def Section.flag (next : IdSet) (s : Section) : Section :=
  { s with selected := decide (s.id ∈ next) }

namespace Course

/-- Every section is what its record is read as. -/
def Faithful (c : Course) : Prop := ∀ s ∈ c.sections, Section.ofRecord c.id s.toRecord = s

theorem exists_of_mem_keepFirst {s : Section} {sections : List Section} {seen : List String}
    (member : s ∈ keepFirst seen sections) :
    ∃ s' ∈ sections, s = s' ∨ s = { s' with selected := false } := by
  induction sections generalizing seen with
  | nil => cases member
  | cons x rest ih =>
    have later : ∀ {seen}, s ∈ keepFirst seen rest →
        ∃ s' ∈ x :: rest, s = s' ∨ s = { s' with selected := false } := by
      intro seen member
      obtain ⟨s', among, same⟩ := ih member
      exact ⟨s', List.mem_cons_of_mem _ among, same⟩
    unfold keepFirst at member
    split at member
    · split at member
      · rcases List.mem_cons.mp member with here | member
        · exact ⟨x, List.mem_cons_self, Or.inr here⟩
        · exact later member
      · rcases List.mem_cons.mp member with here | member
        · exact ⟨x, List.mem_cons_self, Or.inl here⟩
        · exact later member
    · rcases List.mem_cons.mp member with here | member
      · exact ⟨x, List.mem_cons_self, Or.inl here⟩
      · exact later member

theorem faithful_ofRecord (r : CourseRecord) : (ofRecord r).Faithful := by
  intro s member
  obtain ⟨s', among, same⟩ := exists_of_mem_keepFirst member
  obtain ⟨x, -, rfl⟩ := List.mem_map.mp among
  have read : Section.ofRecord r.id (Section.ofRecord r.id x).toRecord = Section.ofRecord r.id x :=
    Section.ofRecord_toRecord r.id x
  rcases same with rfl | rfl
  · exact read
  · exact congrArg (fun s : Section => { s with selected := false }) read

theorem chosen_toRecord {c : Course} (faithful : c.Faithful) (key : String) :
    c.toRecord.chosen key = c.chosen key := by
  have keys : ∀ s ∈ c.sections, Timetable.typeKey s.code = s.typeKey :=
    fun s member => congrArg Section.typeKey (faithful s member)
  rw [CourseRecord.chosen, toRecord, List.filter_map, List.filter_map, List.map_map, chosen]
  have kept : (c.selected.filter fun s => Timetable.typeKey s.toRecord.code = key) =
      c.selected.filter (·.typeKey = key) :=
    List.filter_congr fun s among => by simp [Section.toRecord, keys s (List.mem_filter.mp among).1]
  exact congrArg (List.map (·.id)) kept

/-- The course as it is read from its record with the flags of a selection. -/
def reread (next : IdSet) (c : Course) : Course :=
  .ofRecord { c.toRecord with sections := c.sections.map fun s => (s.flag next).toRecord }

/-- With one section of a kind to select at most, reading leaves the flags as they were written. -/
theorem sections_reread {c : Course} {next : IdSet} (faithful : c.Faithful)
    (single : ((c.sections.filter (·.id ∈ next)).map (·.typeKey)).Nodup) :
    (c.reread next).sections = c.sections.map (Section.flag next) := by
  have read : (c.sections.map fun s => (s.flag next).toRecord).map (Section.ofRecord c.id) =
      c.sections.map (Section.flag next) := by
    rw [List.map_map]
    refine List.map_congr_left fun s member => ?_
    exact congrArg (Section.flag next) (faithful s member)
  show keepFirst [] ((c.sections.map fun s => (s.flag next).toRecord).map
    (Section.ofRecord c.id)) = _
  rw [read]
  apply keepFirst_eq_self
  · rw [List.filter_map, List.map_map]
    exact single
  · exact fun _ _ => List.not_mem_nil

theorem reread_eq_self {c : Course} {next : IdSet} (faithful : c.Faithful)
    (same : ∀ s ∈ c.sections, s.id ∈ next ↔ s.selected = true) : c.reread next = c := by
  have flagged : c.sections.map (Section.flag next) = c.sections := by
    refine (List.map_congr_left fun s member => ?_).trans (List.map_id _)
    simp [Section.flag, same s member]
  have kept : c.sections.filter (·.id ∈ next) = c.selected :=
    List.filter_congr fun s member => by simp [same s member]
  have single : ((c.sections.filter (·.id ∈ next)).map (·.typeKey)).Nodup := by
    rw [kept]
    exact c.nodup_kinds_selected
  have read := sections_reread faithful single
  rw [flagged] at read
  obtain ⟨id, code, term, title, sections, single⟩ := c
  simp only [reread, ofRecord, toRecord, mk.injEq, true_and] at read ⊢
  exact read

theorem selected_reread {c : Course} {next : IdSet} {β : Type} (f : Section → β)
    (blind : ∀ s : Section, f (s.flag next) = f s) (faithful : c.Faithful)
    (single : ((c.sections.filter (·.id ∈ next)).map (·.typeKey)).Nodup) :
    (c.reread next).selected.map f = (c.sections.filter (·.id ∈ next)).map f := by
  rw [selected, sections_reread faithful single, List.filter_map, List.map_map]
  exact List.map_congr_left fun s _ => blind s

end Course

namespace Plan

/-! ## What a request selects -/

/-- The answer to a request. -/
def answer (p : Plan) (q : SelectionRequest) : IdSet := p.select q.courseId q.key q.choice

section Answer

variable {p : Plan} {q : SelectionRequest} {c : Course}

theorem answer_of_refused {e : SelectionError}
    (refused : p.trySelect q.courseId q.key q.choice = .error e) : p.answer q = p.selectedIds := by
  rw [answer, select, refused]

theorem answer_of_isFor (course : c ∈ p.courses) (isFor : q.IsFor c) :
    p.trySelect q.courseId q.key q.choice = .ok (p.answer q) ∧
      p.answer q = p.replaceGroup c q.key q.choice := by
  have found : p.course? q.courseId = some c := isFor.1 ▸ course?_of_mem course
  have granted := trySelect_eq_ok_iff.mpr ⟨c, found, isFor.2, rfl⟩
  have same : p.answer q = p.replaceGroup c q.key q.choice := by rw [answer, select, granted]
  exact ⟨same ▸ granted, same⟩

/-- A request is refused, or it is for a course of the plan. -/
theorem refused_or_isFor (p : Plan) (q : SelectionRequest) :
    (∃ e, p.trySelect q.courseId q.key q.choice = .error e) ∨ ∃ c ∈ p.courses, q.IsFor c := by
  cases tried : p.trySelect q.courseId q.key q.choice with
  | error e => exact Or.inl ⟨e, rfl⟩
  | ok next =>
    obtain ⟨c, found, checked, -⟩ := trySelect_eq_ok_iff.mp tried
    obtain ⟨course, same⟩ := mem_of_course? found
    exact Or.inr ⟨c, course, same, checked⟩

theorem exists_of_mem_answer {id : Int} (among : id ∈ p.answer q) :
    ∃ c ∈ p.courses, ∃ s ∈ c.sections, s.id = id := by
  rcases refused_or_isFor p q with ⟨e, refused⟩ | ⟨c, course, isFor⟩
  · rw [answer_of_refused refused, mem_selectedIds] at among
    obtain ⟨c, course, listed⟩ := among
    obtain ⟨s, selected, same⟩ := List.mem_map.mp listed
    exact ⟨c, course, s, (List.mem_filter.mp selected).1, same⟩
  · rw [(answer_of_isFor course isFor).2] at among
    exact exists_of_mem_replaceGroup course isFor.2 among

variable (distinct : p.sectionIds.Nodup) (course : c ∈ p.courses)
include distinct course

/-- In the course that a request is for, the answer has what is wanted. -/
theorem mem_answer_of_isFor (isFor : q.IsFor c) {s : Section} (member : s ∈ c.sections) :
    s.id ∈ p.answer q ↔ Wanted q.key q.choice s := by
  rw [(answer_of_isFor course isFor).2]
  exact mem_replaceGroup distinct course member

/-- In any other course it has what is selected. -/
theorem mem_answer_of_not_isFor (other : ¬q.IsFor c) {s : Section} (member : s ∈ c.sections) :
    s.id ∈ p.answer q ↔ s.selected = true := by
  rcases refused_or_isFor p q with ⟨e, refused⟩ | ⟨c', course', isFor⟩
  · rw [answer_of_refused refused]
    exact mem_selectedIds_iff distinct course member
  · rw [(answer_of_isFor course' isFor).2]
    refine mem_replaceGroup_other distinct course' isFor.2 course member ?_
    rintro rfl
    exact other isFor

theorem filter_answer_of_not_isFor (other : ¬q.IsFor c) :
    c.sections.filter (·.id ∈ p.answer q) = c.selected :=
  List.filter_congr fun s member => by
    simp [mem_answer_of_not_isFor distinct course other member]

/-- The answer has one section of a kind at most. -/
theorem nodup_kinds_answer :
    ((c.sections.filter (·.id ∈ p.answer q)).map (·.typeKey)).Nodup := by
  by_cases isFor : q.IsFor c
  · have wanted : (c.sections.filter fun s => s.id ∈ p.answer q) =
        c.sections.filter fun s => Wanted q.key q.choice s :=
      List.filter_congr fun s member =>
        decide_eq_decide.mpr (mem_answer_of_isFor distinct course isFor member)
    rw [wanted]
    exact nodup_kinds_wanted (nodup_ids_of_mem distinct course) isFor.2
  · rw [filter_answer_of_not_isFor distinct course isFor]
    exact c.nodup_kinds_selected

/-- Outside of the group that a request is for, the answer has what is selected. -/
theorem answer_group_other {key : String} (other : ¬(q.IsFor c ∧ key = q.key)) :
    ((c.sections.filter (·.id ∈ p.answer q)).filter (·.typeKey = key)).map (·.id) =
      c.chosen key := by
  by_cases isFor : q.IsFor c
  · have differ : key ≠ q.key := fun same => other ⟨isFor, same⟩
    rw [← wanted_group_other (nodup_ids_of_mem distinct course) isFor.2 differ, List.filter_filter]
    refine congrArg _ (List.filter_congr fun s member => ?_)
    simp [mem_answer_of_isFor distinct course isFor member, Bool.and_comm]
  · rw [filter_answer_of_not_isFor distinct course isFor, Course.chosen]

/-- In the group that it is for, the answer has what was asked for. -/
theorem answer_group_self (isFor : q.IsFor c) :
    ((c.sections.filter (·.id ∈ p.answer q)).filter (·.typeKey = q.key)).map (·.id) =
      q.choice.toList := by
  rw [← wanted_group_self (nodup_ids_of_mem distinct course) isFor.2, List.filter_filter]
  refine congrArg _ (List.filter_congr fun s member => ?_)
  simp [mem_answer_of_isFor distinct course isFor member, Bool.and_comm]

end Answer

/-- Why a request is refused: the course is not in the plan, or else the section is not in the
course, or else it is of another kind. -/
inductive Refuses (p : Plan) (q : SelectionRequest) : SelectionError → Prop
  | unknownCourse : q.courseId ∉ p.courses.map (·.id) → Refuses p q (.unknownCourse q.courseId)
  | foreignSection {c : Course} {id : Int} :
    c ∈ p.courses → c.id = q.courseId → q.choice = some id → id ∉ c.sections.map (·.id) →
    Refuses p q (.foreignSection q.courseId id)
  | typeMismatch {c : Course} {s : Section} :
    c ∈ p.courses → c.id = q.courseId → s ∈ c.sections → q.choice = some s.id →
    s.typeKey ≠ q.key → Refuses p q (.typeMismatch s.id q.key s.typeKey)

theorem refuses_of_trySelect {p : Plan} {q : SelectionRequest} {e : SelectionError}
    (refused : p.trySelect q.courseId q.key q.choice = .error e) : p.Refuses q e := by
  unfold trySelect at refused
  cases found : p.course? q.courseId with
  | none =>
    rw [found] at refused
    cases refused
    refine .unknownCourse fun listed => ?_
    obtain ⟨c, course, same⟩ := List.mem_map.mp listed
    rw [← same, course?_of_mem course] at found
    cases found
  | some c =>
    obtain ⟨course, here⟩ := mem_of_course? found
    simp only [found] at refused
    cases asked : q.choice with
    | none =>
      rw [asked] at refused
      cases refused
    | some id =>
      rw [asked, checkChoice] at refused
      cases inside : c.section? id with
      | none =>
        rw [inside] at refused
        cases refused
        rw [here]
        refine .foreignSection course here asked fun listed => ?_
        obtain ⟨s, member, same⟩ := List.mem_map.mp listed
        exact List.find?_eq_none.mp inside s member (decide_eq_true same)
      | some s =>
        have member : s ∈ c.sections := List.mem_of_find?_eq_some inside
        obtain rfl : s.id = id := by simpa using List.find?_some inside
        simp only [inside] at refused
        by_cases keyed : s.typeKey = q.key
        · rw [if_pos keyed] at refused
          cases refused
        · rw [if_neg keyed] at refused
          cases refused
          exact .typeMismatch course here member asked keyed

/-- A request is refused exactly for these reasons. -/
theorem trySelect_eq_error_iff {p : Plan} {q : SelectionRequest} {e : SelectionError}
    (distinct : p.sectionIds.Nodup) :
    p.trySelect q.courseId q.key q.choice = .error e ↔ p.Refuses q e := by
  refine ⟨refuses_of_trySelect, fun refuses => ?_⟩
  cases refuses with
  | unknownCourse absent =>
    have missing : p.course? q.courseId = none := by
      refine List.find?_eq_none.mpr fun c course same => absent ?_
      exact List.mem_map.mpr ⟨c, course, of_decide_eq_true same⟩
    rw [trySelect, missing]
  | @foreignSection c id course here asked foreign =>
    have found : p.course? q.courseId = some c := here ▸ course?_of_mem course
    have outside : c.section? id = none := by
      refine List.find?_eq_none.mpr fun s member same => foreign ?_
      exact List.mem_map.mpr ⟨s, member, of_decide_eq_true same⟩
    simp only [trySelect, found, asked, checkChoice, outside, here]
    rfl
  | @typeMismatch c s course here member asked other =>
    have found : p.course? q.courseId = some c := here ▸ course?_of_mem course
    have inside : c.section? s.id = some s :=
      find?_of_nodup (nodup_ids_of_mem distinct course) member
    simp only [trySelect, found, asked, checkChoice, inside, if_neg other]
    rfl

/-! ## Persisting -/

/-- The plan as it is read from its record with the flags of a selection. -/
def persist (p : Plan) (next : IdSet) : Plan := .ofRecord (p.toRecord.withSelection next)

/-- The plan after the answer to a request has been persisted. -/
def after (p : Plan) (q : SelectionRequest) : Plan := p.persist (p.answer q)

theorem exists_of_mem_putCourse {c x : Course} {courses : List Course}
    (member : x ∈ putCourse c courses) : x = c ∨ x ∈ courses := by
  induction courses with
  | nil => exact Or.inl (List.mem_singleton.mp member)
  | cons y rest ih =>
    unfold putCourse at member
    split at member
    · exact (List.mem_cons.mp member).imp id (List.mem_cons_of_mem y)
    · rcases List.mem_cons.mp member with here | later
      · exact Or.inr (here ▸ List.mem_cons_self)
      · exact (ih later).imp id (List.mem_cons_of_mem y)

theorem faithful_ofRecord (r : PlanRecord) : ∀ c ∈ (ofRecord r).courses, c.Faithful := by
  have held : ∀ (added : List CourseRecord) (courses : List Course),
      (∀ c ∈ courses, c.Faithful) →
        ∀ c ∈ (added.map Course.ofRecord).foldl (fun held c => putCourse c held) courses,
          c.Faithful := by
    intro added
    induction added with
    | nil => exact fun _ held => held
    | cons x rest ih =>
      intro courses held
      refine ih _ fun c member => ?_
      rcases exists_of_mem_putCourse member with rfl | member
      · exact Course.faithful_ofRecord x
      · exact held c member
  exact held r.courses [] fun _ member => absurd member List.not_mem_nil

theorem courses_persist (p : Plan) (next : IdSet) :
    (p.persist next).courses = p.courses.map (Course.reread next) := by
  have written : (p.toRecord.withSelection next).courses = p.courses.map fun c =>
      { c.toRecord with sections := c.sections.map fun s => (s.flag next).toRecord } := by
    rw [PlanRecord.withSelection, toRecord, List.map_map]
    refine List.map_congr_left fun c _ => ?_
    simp only [Function.comp_apply, Course.toRecord, List.map_map]
    rfl
  have distinct : ((p.toRecord.withSelection next).courses.map (·.id)).Nodup := by
    rw [written, List.map_map]
    exact p.distinct
  rw [persist, courses_ofRecord distinct, written, List.map_map]
  rfl

theorem course?_persist (p : Plan) (next : IdSet) (id : Int) :
    (p.persist next).course? id = (p.course? id).map (Course.reread next) := by
  rw [course?, courses_persist, List.find?_map]
  rfl

section After

variable {p : Plan} (q : SelectionRequest) (faithful : ∀ c ∈ p.courses, c.Faithful)
  (distinct : p.sectionIds.Nodup)

theorem course?_after (id : Int) :
    (p.after q).course? id = (p.course? id).map (Course.reread (p.answer q)) :=
  course?_persist p (p.answer q) id

include faithful distinct

theorem sections_after {c : Course} (course : c ∈ p.courses) :
    (c.reread (p.answer q)).sections = c.sections.map (Section.flag (p.answer q)) :=
  Course.sections_reread (faithful c course) (nodup_kinds_answer distinct course)

theorem toRecord_after : (p.after q).toRecord = p.toRecord.withSelection (p.answer q) := by
  have courses : (p.after q).courses.map Course.toRecord =
      (p.toRecord.withSelection (p.answer q)).courses := by
    rw [after, courses_persist, List.map_map, PlanRecord.withSelection, toRecord, List.map_map]
    refine List.map_congr_left fun c course => ?_
    simp only [Function.comp_apply, Course.toRecord, sections_after q faithful distinct course,
      List.map_map]
    rfl
  show PlanRecord.mk p.term ((p.after q).courses.map Course.toRecord) = _
  rw [courses]
  rfl

theorem selectedIds_after : (p.after q).selectedIds = p.answer q := by
  refine IdSet.ext_mem fun id => ?_
  have courses := courses_persist p (p.answer q)
  rw [mem_selectedIds, after, courses]
  constructor
  · intro listed
    obtain ⟨_, among, listed⟩ := listed
    obtain ⟨c, course, rfl⟩ := List.mem_map.mp among
    rw [Course.selected_reread (·.id) (fun _ => rfl) (faithful c course)
      (nodup_kinds_answer distinct course)] at listed
    obtain ⟨s, kept, rfl⟩ := List.mem_map.mp listed
    exact of_decide_eq_true (List.mem_filter.mp kept).2
  · intro among
    obtain ⟨c, course, s, member, rfl⟩ := exists_of_mem_answer among
    refine ⟨_, List.mem_map_of_mem course, ?_⟩
    rw [Course.selected_reread (·.id) (fun _ => rfl) (faithful c course)
      (nodup_kinds_answer distinct course)]
    exact List.mem_map_of_mem (List.mem_filter.mpr ⟨member, decide_eq_true among⟩)

theorem chosen_after {c : Course} (course : c ∈ p.courses) (key : String) :
    (c.reread (p.answer q)).chosen key =
      ((c.sections.filter (·.id ∈ p.answer q)).filter (·.typeKey = key)).map (·.id) := by
  have labelled := congrArg (fun l => (l.filter (·.2 = key)).map Prod.fst)
    (Course.selected_reread (fun s => (s.id, s.typeKey)) (fun _ => rfl) (faithful c course)
      (nodup_kinds_answer (q := q) distinct course))
  simpa only [Course.chosen, List.filter_map, List.map_map, Function.comp_def] using labelled

theorem chosen?_after_other {id : Int} {key : String} (other : ¬(id = q.courseId ∧ key = q.key)) :
    (p.after q).chosen? id key = p.chosen? id key := by
  rw [chosen?, course?_after, chosen?, Option.map_map]
  refine Option.map_congr fun c found => ?_
  obtain ⟨course, here⟩ := mem_of_course? found
  rw [Function.comp_apply, chosen_after q faithful distinct course]
  refine answer_group_other distinct course fun both => other ?_
  exact ⟨here.symm.trans both.1.1, both.2⟩

theorem after_of_refused {e : SelectionError}
    (refused : p.trySelect q.courseId q.key q.choice = .error e) : p.after q = p := by
  have courses : (p.after q).courses = p.courses := by
    rw [after, courses_persist, answer_of_refused refused]
    refine (List.map_congr_left fun c course => ?_).trans (List.map_id _)
    exact Course.reread_eq_self (faithful c course) fun s member =>
      mem_selectedIds_iff distinct course member
  obtain ⟨term, held, unique⟩ := p
  exact Plan.mk.injEq .. |>.mpr ⟨rfl, courses⟩

/-- Reading again leaves ids and kinds alone. -/
theorem sectionIds_after : (p.after q).sectionIds = p.sectionIds := by
  rw [sectionIds, after, courses_persist, List.flatMap_map, sectionIds]
  refine List.flatMap_congr fun c course => ?_
  rw [sections_after q faithful distinct course, List.map_map]
  rfl

/-- A request is for the same courses after it has been answered. -/
theorem isFor_after {c : Course} (course : c ∈ p.courses) (isFor : q.IsFor c) :
    q.IsFor (c.reread (p.answer q)) := by
  refine ⟨isFor.1, checkChoice_eq_ok_iff.mpr fun id asked => ?_⟩
  obtain ⟨s, inside, keyed⟩ := checkChoice_eq_ok_iff.mp isFor.2 id asked
  refine ⟨s.flag (p.answer q), ?_, keyed⟩
  rw [Course.section?, sections_after q faithful distinct course, List.find?_map]
  exact congrArg (Option.map (Section.flag (p.answer q))) inside

/-- Section by section, what is wanted is still wanted. -/
theorem mem_answer_after {c₀ c : Course} (course₀ : c₀ ∈ p.courses) (isFor : q.IsFor c₀)
    (course : c ∈ p.courses) {s : Section} (member : s ∈ c.sections) :
    s.id ∈ (p.after q).answer q ↔ s.id ∈ p.answer q := by
  have distinct' : (p.after q).sectionIds.Nodup := by rwa [sectionIds_after q faithful distinct]
  have course' : c.reread (p.answer q) ∈ (p.after q).courses := by
    rw [after, courses_persist]
    exact List.mem_map_of_mem course
  have member' : s.flag (p.answer q) ∈ (c.reread (p.answer q)).sections := by
    rw [sections_after q faithful distinct course]
    exact List.mem_map_of_mem member
  have flagged : (s.flag (p.answer q)).selected = true ↔ s.id ∈ p.answer q := decide_eq_true_iff
  by_cases here : q.IsFor c
  · have wanted := mem_answer_of_isFor distinct course here member
    have again := mem_answer_of_isFor distinct' course'
      (isFor_after q faithful distinct course here) member'
    rw [Wanted, flagged, wanted] at again
    refine again.trans (Iff.trans ?_ wanted.symm)
    show q.choice = some s.id ∨ Wanted q.key q.choice s ∧ s.typeKey ≠ q.key ↔ _
    rw [Wanted]
    tauto
  · have other : ¬q.IsFor (c.reread (p.answer q)) := by
      intro again
      obtain rfl : c = c₀ :=
        List.inj_on_of_nodup_map p.distinct course course₀ (again.1.trans isFor.1.symm)
      exact here isFor
    exact (mem_answer_of_not_isFor distinct' course' other member').trans flagged

theorem answer_after : (p.after q).answer q = p.answer q := by
  rcases refused_or_isFor p q with ⟨e, refused⟩ | ⟨c₀, course₀, isFor⟩
  · rw [after_of_refused q faithful distinct refused]
  · have still := fun {c} => mem_answer_after (c := c) q faithful distinct course₀ isFor
    refine IdSet.ext_mem fun id => ⟨fun among => ?_, fun among => ?_⟩
    · obtain ⟨_, course', s', member', rfl⟩ := exists_of_mem_answer among
      rw [after, courses_persist] at course'
      obtain ⟨c, course, rfl⟩ := List.mem_map.mp course'
      rw [sections_after q faithful distinct course] at member'
      obtain ⟨s, member, rfl⟩ := List.mem_map.mp member'
      exact (still course member).mp among
    · obtain ⟨c, course, s, member, rfl⟩ := exists_of_mem_answer among
      exact (still course member).mpr among

end After

/-- What holds of a request and its answer once the answer has been persisted: exactly the answer is
selected, and reading had nothing to repair in the record; no group of the record has two selected
sections; no group changes but the one that the request is for; a request that is refused changes
nothing, and one that is granted leaves its group with what was asked for; asked again, it is
answered as before; and a request is refused for the first of its parts that is wrong. -/
structure Obeys (p : Plan) (q : SelectionRequest) : Prop where
  selected : (p.after q).selectedIds = p.answer q
  unrepaired : (p.after q).toRecord = p.toRecord.withSelection (p.answer q)
  single : ∀ c ∈ (p.toRecord.withSelection (p.answer q)).courses, ∀ key,
    (c.chosen key).length ≤ 1
  others : ∀ id key, ¬(id = q.courseId ∧ key = q.key) →
    (p.after q).chosen? id key = p.chosen? id key
  refused : ∀ e, p.trySelect q.courseId q.key q.choice = .error e →
    p.answer q = p.selectedIds ∧ p.after q = p
  granted : ∀ next, p.trySelect q.courseId q.key q.choice = .ok next →
    p.answer q = next ∧ (p.after q).chosen? q.courseId q.key = some q.choice.toList
  again : (p.after q).answer q = p.answer q
  refuses : ∀ e, p.trySelect q.courseId q.key q.choice = .error e ↔ p.Refuses q e

theorem obeys {p : Plan} (faithful : ∀ c ∈ p.courses, c.Faithful) (distinct : p.sectionIds.Nodup)
    (q : SelectionRequest) : p.Obeys q := by
  constructor
  case selected => exact selectedIds_after q faithful distinct
  case unrepaired => exact toRecord_after q faithful distinct
  case single =>
    rw [← toRecord_after q faithful distinct]
    intro c member key
    obtain ⟨c', course', rfl⟩ := List.mem_map.mp member
    rw [Course.chosen_toRecord (faithful_ofRecord _ c' course')]
    exact c'.length_chosen_le_one key
  case others => exact fun id key other => chosen?_after_other q faithful distinct other
  case refused =>
    exact fun e refused => ⟨answer_of_refused refused, after_of_refused q faithful distinct refused⟩
  case granted =>
    intro next granted
    obtain ⟨c, found, checked, -⟩ := trySelect_eq_ok_iff.mp granted
    obtain ⟨course, here⟩ := mem_of_course? found
    have isFor : q.IsFor c := ⟨here, checked⟩
    refine ⟨Except.ok.inj ((answer_of_isFor course isFor).1.symm.trans granted), ?_⟩
    rw [chosen?, course?_after, found, Option.map_some, Option.map_some,
      chosen_after q faithful distinct course, answer_group_self distinct course isFor]
  case again => exact answer_after q faithful distinct
  case refuses => exact fun e => trySelect_eq_error_iff distinct

/-- After any number of requests, granted or refused, each answer that is persisted is obeyed. -/
theorem selections_obeyed {r : PlanRecord} (distinct : (ofRecord r).sectionIds.Nodup)
    (before : List SelectionRequest) (q : SelectionRequest) :
    (before.foldl after (ofRecord r)).Obeys q := by
  induction before generalizing r with
  | nil => exact obeys (faithful_ofRecord r) distinct q
  | cons q' later ih =>
    refine ih (r := (ofRecord r).toRecord.withSelection ((ofRecord r).answer q')) ?_
    show ((ofRecord r).after q').sectionIds.Nodup
    rwa [sectionIds_after q' (faithful_ofRecord r) distinct]

/-- A record with two lectures of one course selected. -/
def twoSelected : PlanRecord where
  courses :=
    [{ id := 10, code := "CS 1713", term := "202620"
       sections :=
         [{ id := 1, courseId := 10, code := "L1", selected := true },
          { id := 2, courseId := 10, code := "L2", selected := true },
          { id := 3, courseId := 10, code := "R1" }] },
     { id := 20, code := "MAT 1214", term := "202620"
       sections := [{ id := 4, courseId := 20, code := "L1", selected := true }] }]

theorem selections_obeyed_twoSelected :
    (ofRecord twoSelected).sectionIds.Nodup ∧
      ([⟨10, "R", some 3⟩, ⟨10, "L", some 3⟩].foldl after (ofRecord twoSelected)).Obeys
        ⟨10, "L", some 2⟩ ∧
      ([⟨10, "R", some 3⟩, ⟨10, "L", some 3⟩, ⟨10, "L", some 2⟩].foldl after
        (ofRecord twoSelected)).selectedIds.toList = [2, 3, 4] := by
  have distinct : (ofRecord twoSelected).sectionIds.Nodup := by decide
  exact ⟨distinct, selections_obeyed distinct _ _, by decide +kernel⟩

end Plan

end Timetable
