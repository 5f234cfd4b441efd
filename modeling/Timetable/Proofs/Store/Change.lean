import Mathlib.Data.List.Chain
import Timetable.Proofs.Store.Building

/-!
# What a call does to the courses of the store

A call does one of two things (`Memory.Change`): some courses go and the others stay the courses that
they are (`Restyled`), or a course is added behind the others (`Newcomer`), with ids beyond the last
one that was given out. So what holds in every run of a store is shown for these two cases, whatever
is called (`Memory.change_serve`).
-/

namespace Timetable.Store.Memory

/-- The ids of all courses and sections. -/
def ids (m : Memory) : List Int := m.courses.flatMap idsOf

theorem mem_ids {m : Memory} {c : CourseRecord} {id : Int} (member : c ∈ m.courses)
    (own : id ∈ idsOf c) : id ∈ m.ids := List.mem_flatMap.mpr ⟨c, member, own⟩

/-- A course stays the one that it is: ids, term, code and the course that its sections name are
kept, and no kind gets a second selected section. -/
structure Restyled (c c' : CourseRecord) : Prop where
  ids : idsOf c' = idsOf c
  term : c'.term = c.term
  code : c'.code = c.code
  owners : c'.sections.map (·.courseId) = c.sections.map (·.courseId)
  single : c.Single → c'.Single

theorem Restyled.refl (c : CourseRecord) : Restyled c c := ⟨rfl, rfl, rfl, rfl, id⟩

/-- A course that is new to the store: its ids ascend from behind the last one that was given out,
its sections name it, none of them is selected, and no course of its term has its code. -/
structure Newcomer (m : Memory) (c : CourseRecord) : Prop where
  ids : (m.lastId :: idsOf c).Pairwise (· < ·)
  owners : ∀ s ∈ c.sections, s.courseId = c.id
  unselected : ∀ s ∈ c.sections, s.selected = false
  code : ∀ c' ∈ m.courses, c'.term = c.term → Text.sameLetters c'.code c.code = false

theorem Newcomer.lt {m : Memory} {c : CourseRecord} (newcomer : Newcomer m c) {id : Int}
    (own : id ∈ idsOf c) : m.lastId < id := List.rel_of_pairwise_cons newcomer.ids own

/-- What a call can do to the courses of a store. -/
inductive Change (m m' : Memory) : Prop
  /-- Some courses are gone, and the others stay the ones that they are. -/
  | kept (courses : List CourseRecord) (thinned : courses.Sublist m.courses)
      (restyled : List.Forall₂ Restyled courses m'.courses) (lastId : m'.lastId = m.lastId)
  /-- A course is added behind the others. -/
  | added (c : CourseRecord) (newcomer : Newcomer m c) (courses : m'.courses = m.courses ++ [c])
      (lastId : ∀ id ∈ idsOf c, id ≤ m'.lastId)

variable {m m' : Memory}

/-- What stands in the second of two related lists is related to something in the first. -/
theorem exists_of_mem_forall₂ {α β : Type} {R : α → β → Prop} {xs : List α} {ys : List β}
    (related : List.Forall₂ R xs ys) {y : β} (member : y ∈ ys) : ∃ x ∈ xs, R x y := by
  induction related with
  | nil => cases member
  | cons first _ ih =>
    rcases List.mem_cons.mp member with rfl | later
    · exact ⟨_, List.mem_cons_self, first⟩
    · obtain ⟨x, among, same⟩ := ih later
      exact ⟨x, List.mem_cons_of_mem _ among, same⟩

/-! ## Courses that stay -/

theorem Change.of_sublist (thinned : m'.courses.Sublist m.courses)
    (lastId : m'.lastId = m.lastId) : Change m m' :=
  .kept m'.courses thinned (List.forall₂_same.mpr fun c _ => .refl c) lastId

theorem Change.refl (m : Memory) : Change m m := .of_sublist (.refl _) rfl

theorem forall₂_updateFirst {R : CourseRecord → CourseRecord → Prop} (refl : ∀ c, R c c) {id : Int}
    {change : CourseRecord → CourseRecord} (courses : List CourseRecord)
    (changed : ∀ c, courses.find? (·.id = id) = some c → R c (change c)) :
    List.Forall₂ R courses (updateFirst id change courses) := by
  induction courses with
  | nil => exact .nil
  | cons c rest ih =>
    unfold updateFirst
    by_cases here : c.id = id
    · rw [if_pos here]
      exact .cons (changed c (by simp [here])) (List.forall₂_same.mpr fun c _ => refl c)
    · rw [if_neg here]
      exact .cons (refl c) (ih fun c' found => changed c' (by simpa [here] using found))

theorem change_update {id : Int} {change : CourseRecord → CourseRecord}
    (restyled : ∀ c, m.course? id = some c → Restyled c (change c)) :
    Change m (m.update id change) :=
  .kept m.courses (.refl _) (forall₂_updateFirst .refl m.courses restyled) rfl

theorem restyled_choose {ids : List Int} {c : CourseRecord}
    (single : ((c.sections.filter (·.id ∈ ids)).map (typeKey ·.code)).Nodup) :
    Restyled c (choose ids c) := by
  have sections : ∀ {β : Type} (f : SectionRecord → β), (∀ s on, f (setSelected s on) = f s) →
      (choose ids c).sections.map f = c.sections.map f := by
    intro β f blind
    rw [choose, List.map_map]
    exact List.map_congr_left fun s _ => blind s _
  constructor
  case ids => exact congrArg (c.id :: ·) (sections (·.id) fun _ _ => rfl)
  case term => rfl
  case code => rfl
  case owners => exact sections (·.courseId) fun _ _ => rfl
  case single => exact fun _ => single_choose single

theorem restyled_refresh (template c : CourseRecord) :
    Restyled c { c with sections := c.sections.map (refreshSection template) } := by
  have same : ∀ s, (refreshSection template s).id = s.id ∧
      (refreshSection template s).courseId = s.courseId ∧
      (refreshSection template s).code = s.code ∧
      (refreshSection template s).selected = s.selected := by
    intro s
    unfold refreshSection
    split <;> exact ⟨rfl, rfl, rfl, rfl⟩
  constructor
  case ids => simp [idsOf, Function.comp_def, same]
  case term => rfl
  case code => rfl
  case owners => simp [Function.comp_def, same]
  case single => simp [CourseRecord.Single, List.filter_map, Function.comp_def, same]

/-! ## A course that is added -/

theorem isChain_enrol (courseId : Int) (sections : List SectionRecord) {before id : Int}
    (behind : before < id) :
    (before :: (enrol courseId id sections).map (·.id)).IsChain (· < ·) := by
  induction sections generalizing before id with
  | nil => exact .singleton _
  | cons s rest ih => exact List.isChain_cons_cons.mpr ⟨behind, ih (Int.lt_succ id)⟩

theorem of_mem_enrol {courseId id : Int} {sections : List SectionRecord} {s : SectionRecord}
    (member : s ∈ enrol courseId id sections) :
    s.courseId = courseId ∧ s.selected = false ∧ s.id < id + sections.length := by
  induction sections generalizing id with
  | nil => cases member
  | cons t rest ih =>
    rw [List.length_cons]
    rcases List.mem_cons.mp member with rfl | later
    · refine ⟨rfl, rfl, ?_⟩
      show id < id + _
      omega
    · obtain ⟨owner, off, below⟩ := ih later
      exact ⟨owner, off, by omega⟩

theorem exists_of_addCourse {code term : String} (accepted : m.addCourse code term = .ok m') :
    ∃ c, Newcomer m c ∧ m' = { m with courses := m.courses ++ [c], lastId := m'.lastId } ∧
      ∀ id ∈ idsOf c, id ≤ m'.lastId := by
  unfold addCourse at accepted
  split at accepted
  · cases accepted
  next template _ =>
  split at accepted
  · cases accepted
  next unlisted =>
  cases accepted
  refine ⟨_, ?_, rfl, ?_⟩
  · constructor
    case ids =>
      have first : m.lastId < m.lastId + 1 := Int.lt_succ _
      exact List.isChain_iff_pairwise.mp
        (List.isChain_cons_cons.mpr ⟨first, isChain_enrol _ _ (Int.lt_succ _)⟩)
    case owners => exact fun s member => (of_mem_enrol member).1
    case unselected => exact fun s member => (of_mem_enrol member).2.1
    case code => simpa using unlisted
  · intro id among
    rcases List.mem_cons.mp among with rfl | section_id
    · show m.lastId + 1 ≤ m.lastId + 1 + _
      omega
    · obtain ⟨s, member, rfl⟩ := List.mem_map.mp section_id
      have below := (of_mem_enrol member).2.2
      show s.id ≤ m.lastId + 1 + _
      omega

/-! ## Calls -/

theorem change_autoBuild (courseIds : (m.courses.map (·.id)).Nodup)
    (sectionIds : (m.courses.flatMap fun c => c.sections.map (·.id)).Nodup) :
    Change m m.autoBuild := by
  refine .kept m.courses (.refl _) ?_ rfl
  rw [autoBuild_courses courseIds sectionIds, List.forall₂_map_right_iff,
    List.forall₂_same]
  intro r member
  split
  next inside =>
    exact restyled_choose (nodup_kinds_chosenIds courseIds sectionIds
      (List.mem_filter.mpr ⟨member, inside⟩))
  next => exact .refl r

theorem change_answerPlan {changed : Except Error Memory}
    (change : ∀ m', changed = .ok m' → Change m m') : Change m (m.answerPlan changed).2 := by
  cases changed with
  | ok after => exact change after rfl
  | error e => exact .refl m

theorem change_serve (courseIds : (m.courses.map (·.id)).Nodup)
    (sectionIds : (m.courses.flatMap fun c => c.sections.map (·.id)).Nodup) {k : Kind}
    (call : Call k) : Change m (m.serve call).2 := by
  cases call with
  | fetchPlan term =>
    cases term with
    | none => exact .refl m
    | some t => exact .of_sublist (.refl _) rfl
  | addCourse code term =>
    refine change_answerPlan fun m' accepted => ?_
    obtain ⟨c, newcomer, stored, lastId⟩ := exists_of_addCourse accepted
    exact .added c newcomer (congrArg Memory.courses stored) lastId
  | removeCourse id =>
    show Change m (m.removeCourse id).2
    rw [removeCourse_eq]
    exact .of_sublist List.filter_sublist rfl
  | refreshSections id force =>
    refine change_answerPlan fun m' accepted => ?_
    unfold refreshSections at accepted
    split at accepted
    · cases accepted
    · split at accepted
      next template _ =>
        split at accepted
        · cases accepted
          exact change_update fun c _ => restyled_refresh template c
        · cases accepted
          exact .refl m
      next =>
        cases accepted
        exact .refl m
  | selectSections id sectionIds =>
    refine change_answerPlan fun m' accepted => ?_
    obtain ⟨c, found, -, single, rfl⟩ := selectSections_eq_ok_iff.mp accepted
    refine change_update fun c' found' => ?_
    obtain rfl : c = c' := Option.some.inj (found.symm.trans found')
    exact restyled_choose single
  | autoBuild => exact change_autoBuild courseIds sectionIds
  | reset term =>
    cases term with
    | none => exact .of_sublist (List.nil_sublist _) rfl
    | some t => exact .of_sublist List.filter_sublist rfl

/-! ## What follows for the ids -/

theorem map_restyled {courses courses' : List CourseRecord}
    (restyled : List.Forall₂ Restyled courses courses') {β : Type} (f : CourseRecord → β)
    (keeps : ∀ c c', Restyled c c' → f c' = f c) : courses'.map f = courses.map f := by
  induction restyled with
  | nil => rfl
  | cons first _ ih => rw [List.map_cons, List.map_cons, keeps _ _ first, ih]

theorem Change.lastId_le (change : Change m m') : m.lastId ≤ m'.lastId := by
  cases change with
  | kept courses thinned restyled lastId => omega
  | added c newcomer courses lastId =>
    have beyond : m.lastId < c.id := newcomer.lt List.mem_cons_self
    have bounded := lastId c.id List.mem_cons_self
    omega

/-- An id that a call brings is beyond the last one that was given out. -/
theorem Change.mem_or_lt (change : Change m m') {id : Int} (among : id ∈ m'.ids) :
    id ∈ m.ids ∨ m.lastId < id ∧ id ≤ m'.lastId := by
  obtain ⟨c', member, own⟩ := List.mem_flatMap.mp among
  cases change with
  | kept courses thinned restyled lastId =>
    obtain ⟨c, earlier, same⟩ := exists_of_mem_forall₂ restyled member
    exact .inl (mem_ids (thinned.subset earlier) (same.ids ▸ own))
  | added c newcomer courses lastId =>
    rcases List.mem_append.mp (courses ▸ member) with held | new
    · exact .inl (mem_ids held own)
    · obtain rfl := List.mem_singleton.mp new
      exact .inr ⟨newcomer.lt own, lastId id own⟩

end Timetable.Store.Memory
