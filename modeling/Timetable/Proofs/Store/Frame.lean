import Timetable.Proofs.Store.Answers
import Timetable.Proofs.Store.WellFormed

/-!
# What a call leaves alone

Every call is told by the store that it leaves behind (the equations of the second section), so all
that it does not name is seen to stay. Removing, refreshing and selecting go by the id of a course
and leave every other course as it is (`filter_updateFirst`). Building goes by the term, and where no
course id repeats it changes flags and counters of the courses in the scope and nothing else.
Refreshing takes from the catalog what the catalog knows of a section; it finds the same there a
second time and changes nothing more (`refreshed_refreshed`). Main statement:
`Memory.frame_of_nodup`.
-/

namespace Timetable.Store

/-- The course that a call goes by. -/
def Call.course? : {k : Kind} → Call k → Option Int
  | _, .fetchPlan _ => none
  | _, .addCourse .. => none
  | _, .removeCourse id => some id
  | _, .refreshSections id _ => some id
  | _, .selectSections id _ => some id
  | _, .autoBuild => none
  | _, .reset _ => none

namespace Memory

variable {m : Memory}

/-! ## Changing one course -/

theorem updateFirst_congr {id : Int} {change change' : CourseRecord → CourseRecord}
    {courses : List CourseRecord}
    (same : ∀ c, courses.find? (·.id = id) = some c → change c = change' c) :
    updateFirst id change courses = updateFirst id change' courses := by
  induction courses with
  | nil => rfl
  | cons c rest ih =>
    unfold updateFirst
    by_cases here : c.id = id
    · rw [if_pos here, if_pos here, same c (by simp [here])]
    · rw [if_neg here, if_neg here, ih fun c' found => same c' (by simpa [here] using found)]

theorem updateFirst_self (id : Int) (courses : List CourseRecord) :
    updateFirst id (fun c => c) courses = courses := by
  induction courses with
  | nil => rfl
  | cons c rest ih => rw [updateFirst, ih, ite_self]

/-- Only what happens to the course that is found matters. -/
theorem update_congr {id : Int} {change change' : CourseRecord → CourseRecord}
    (same : ∀ c, m.course? id = some c → change c = change' c) :
    m.update id change = m.update id change' := by
  rw [update, update, updateFirst_congr same]

theorem update_eq_self {id : Int} {change : CourseRecord → CourseRecord}
    (same : ∀ c, m.course? id = some c → change c = c) : m.update id change = m := by
  have kept : m.update id change = m.update id fun c => c := update_congr same
  rw [kept, update, updateFirst_self]

section Update

variable {id : Int} {change : CourseRecord → CourseRecord} (keeps : ∀ c, (change c).id = c.id)
include keeps

theorem filter_updateFirst (courses : List CourseRecord) :
    (updateFirst id change courses).filter (·.id ≠ id) = courses.filter (·.id ≠ id) := by
  induction courses with
  | nil => rfl
  | cons c rest ih =>
    unfold updateFirst
    by_cases here : c.id = id
    · rw [if_pos here, List.filter_cons_of_neg (by simp [keeps, here]),
        List.filter_cons_of_neg (by simp [here])]
    · rw [if_neg here, List.filter_cons_of_pos (by simp [here]),
        List.filter_cons_of_pos (by simp [here]), ih]

theorem updateFirst_updateFirst (courses : List CourseRecord) :
    updateFirst id change (updateFirst id change courses) =
      updateFirst id (change ∘ change) courses := by
  induction courses with
  | nil => rfl
  | cons c rest ih =>
    by_cases here : c.id = id
    · simp [updateFirst, here, keeps]
    · simp [updateFirst, here, ih]

end Update

/-! ## The store after a call -/

theorem serve_fetchPlan (m : Memory) (term : Option String) :
    (m.serve (.fetchPlan term)).2 = { m with term := term.or m.term } := by
  cases term with
  | none => rfl
  | some t => rfl

theorem serve_addCourse (m : Memory) (code term : String) :
    (∃ e, m.serve (.addCourse code term) = (.error e, m)) ∨
      ∃ c lastId, Newcomer m c ∧
        m.serve (.addCourse code term) =
          m.answerPlan (.ok { m with courses := m.courses ++ [c], lastId := lastId }) := by
  show (∃ e, m.answerPlan (m.addCourse code term) = (.error e, m)) ∨
    ∃ c lastId, Newcomer m c ∧ m.answerPlan (m.addCourse code term) = m.answerPlan (.ok _)
  cases added : m.addCourse code term with
  | error e => exact Or.inl ⟨e, rfl⟩
  | ok m' =>
    obtain ⟨c, newcomer, stored, -⟩ := exists_of_addCourse added
    exact Or.inr ⟨c, m'.lastId, newcomer, congrArg (fun m' => m.answerPlan (.ok m')) stored⟩

theorem serve_removeCourse (m : Memory) (id : Int) :
    m.serve (.removeCourse id) =
      (if (m.course? id).isSome then .ok () else .error (noCourse id),
        { m with courses := m.courses.filter (·.id ≠ id) }) :=
  removeCourse_eq m id

/-- A course as a refresh leaves it: what the catalog lists of it is taken from there. -/
def refreshed (m : Memory) (force : Bool) (c : CourseRecord) : CourseRecord :=
  match m.catalogEntry? c.code with
  | none => c
  | some template =>
    if force then { c with sections := c.sections.map (refreshSection template) } else c

theorem refreshSections_eq (m : Memory) (id : Int) (force : Bool) :
    m.refreshSections id force =
      if (m.course? id).isSome then .ok (m.update id (m.refreshed force))
      else .error (noCourse id) := by
  unfold refreshSections
  cases found : m.course? id with
  | none => rfl
  | some c =>
    rw [Option.isSome_some, if_pos rfl]
    have stays (same : m.refreshed force c = c) : m = m.update id (m.refreshed force) := by
      refine (update_eq_self fun c' found' => ?_).symm
      obtain rfl : c = c' := Option.some.inj (found.symm.trans found')
      exact same
    cases entry : m.catalogEntry? c.code with
    | none =>
      simp only [entry]
      exact congrArg Except.ok (stays (by simp only [refreshed, entry]))
    | some template =>
      cases force with
      | false =>
        simp only [entry, Bool.false_eq_true, if_false]
        exact congrArg Except.ok (stays (by simp [refreshed, entry]))
      | true =>
        simp only [entry, if_true]
        refine congrArg Except.ok (update_congr fun c' found' => ?_)
        obtain rfl : c = c' := Option.some.inj (found.symm.trans found')
        simp [refreshed, entry]

theorem serve_refreshSections (m : Memory) (id : Int) (force : Bool) :
    m.serve (.refreshSections id force) =
      (if (m.course? id).isSome then .ok (m.update id (m.refreshed force)).snapshot
        else .error (noCourse id),
        m.update id (m.refreshed force)) := by
  show m.answerPlan (m.refreshSections id force) = _
  rw [refreshSections_eq]
  by_cases held : (m.course? id).isSome = true
  · rw [if_pos held, if_pos held]
    rfl
  · have same : m.update id (m.refreshed force) = m :=
      update_eq_self fun c found => absurd (found ▸ rfl) held
    rw [if_neg held, if_neg held, same]
    rfl

theorem serve_selectSections (m : Memory) (id : Int) (ids : List Int) :
    (∃ e, m.serve (.selectSections id ids) = (.error e, m)) ∨
      m.serve (.selectSections id ids) = m.answerPlan (.ok (m.update id (choose ids))) := by
  show (∃ e, m.answerPlan (m.selectSections id ids) = (.error e, m)) ∨
    m.answerPlan (m.selectSections id ids) = _
  cases selected : m.selectSections id ids with
  | error e => exact Or.inl ⟨e, rfl⟩
  | ok m' =>
    obtain rfl := selectSections_eq_ok selected
    exact Or.inr rfl

theorem serve_reset (m : Memory) (term : Option String) :
    (m.serve (.reset term)).2 =
      { m with courses := m.courses.filter fun c => term.any (c.term ≠ ·) } := by
  cases term with
  | none => simp [serve, reset]
  | some t => rfl

/-! ## Refreshing -/

/-- What a refresh takes from the catalog is the same when it looks again. -/
theorem refreshSection_refreshSection (template : CourseRecord) (s : SectionRecord) :
    refreshSection template (refreshSection template s) = refreshSection template s := by
  cases entry : template.sections.find? (·.code = s.code) with
  | none => simp only [refreshSection, entry]
  | some fresh => simp only [refreshSection, entry]

theorem refreshed_refreshed (m : Memory) (force : Bool) (c : CourseRecord) :
    m.refreshed force (m.refreshed force c) = m.refreshed force c := by
  cases entry : m.catalogEntry? c.code with
  | none => simp only [refreshed, entry]
  | some template =>
    cases force with
    | false => simp [refreshed, entry]
    | true => simp [refreshed, entry, refreshSection_refreshSection]

theorem refreshed_id (m : Memory) (force : Bool) (c : CourseRecord) :
    (m.refreshed force c).id = c.id := by
  unfold refreshed
  split
  · rfl
  · split <;> rfl

/-! ## The frame -/

/-- Building changes flags and counters in a course, and nothing in one that answers do not show. -/
structure Reselected (m : Memory) (c c' : CourseRecord) : Prop where
  outside : c ∉ m.snapshot.courses → c' = c
  rest : c' = { c with sections := c'.sections }
  sections : List.Forall₂
    (fun s s' => s' = { s with selected := s'.selected, selectedCount := s'.selectedCount })
    c.sections c'.sections

/-- A forced refresh of the course `id` changes what the catalog knows better of its sections, and
nothing of a section that is not listed there or of any other course. -/
structure Reread (m : Memory) (id : Int) (c c' : CourseRecord) : Prop where
  other : c.id ≠ id → c' = c
  rest : c' = { c with sections := c'.sections }
  sections : List.Forall₂
    (fun s s' =>
      s' = { s with
        days := s'.days, times := s'.times, capacity := s'.capacity, enrolled := s'.enrolled
        faculty := s'.faculty, room := s'.room } ∧
      (s' ≠ s → ∃ template, m.catalogEntry? c.code = some template ∧
        s.code ∈ template.sections.map (·.code)))
    c.sections c'.sections

/-- What a call to the store leaves alone. -/
structure Frame (m : Memory) : Prop where
  refused : ∀ (call : AnyCall) (e : Error), (m.serve call.2).1 = .error e → (m.serve call.2).2 = m
  catalog : ∀ call : AnyCall, (m.serve call.2).2.catalog = m.catalog
  term : ∀ call : AnyCall, (m.serve call.2).2.term ≠ m.term → ∃ t, call = ⟨_, .fetchPlan (some t)⟩
  lastId : ∀ call : AnyCall, (m.serve call.2).2.lastId ≠ m.lastId →
    ∃ code term r, call = ⟨_, .addCourse code term⟩ ∧ (m.serve (.addCourse code term)).1 = .ok r
  others : ∀ (call : AnyCall) (id : Int), call.2.course? = some id →
    (m.serve call.2).2.courses.filter (·.id ≠ id) = m.courses.filter (·.id ≠ id)
  fetched : ∀ term, (m.serve (.fetchPlan term)).2.courses = m.courses
  added : ∀ code term r, (m.serve (.addCourse code term)).1 = .ok r →
    ∃ c, (m.serve (.addCourse code term)).2.courses = m.courses ++ [c]
  reset : ∀ term, (m.serve (.reset term)).2.courses.Sublist m.courses ∧
    ∀ c, c ∈ (m.serve (.reset term)).2.courses ↔ c ∈ m.courses ∧ ∃ t, term = some t ∧ c.term ≠ t
  built : List.Forall₂ (Reselected m) m.courses (m.serve .autoBuild).2.courses
  unforced : ∀ id, (m.serve (.refreshSections id false)).2 = m
  forced : ∀ id,
    List.Forall₂ (Reread m id) m.courses (m.serve (.refreshSections id true)).2.courses
  twice : ∀ id force, (m.serve (.refreshSections id force)).2.serve (.refreshSections id force) =
    m.serve (.refreshSections id force)

theorem serve_catalog (m : Memory) {k : Kind} (call : Call k) :
    (m.serve call).2.catalog = m.catalog := by
  cases call with
  | fetchPlan term => rw [serve_fetchPlan]
  | addCourse code term =>
    rcases serve_addCourse m code term with ⟨e, refused⟩ | ⟨c, lastId, -, served⟩
    · rw [refused]
    · rw [served]
      rfl
  | removeCourse id => rw [serve_removeCourse]
  | refreshSections id force =>
    rw [serve_refreshSections]
    rfl
  | selectSections id ids =>
    rcases serve_selectSections m id ids with ⟨e, refused⟩ | served
    · rw [refused]
    · rw [served]
      rfl
  | autoBuild => rfl
  | reset term => rw [serve_reset]

/-- Only a course that is added takes ids. -/
theorem lastId_of_serve {k : Kind} (call : Call k)
    (moved : (m.serve call).2.lastId ≠ m.lastId) :
    ∃ code term r, (⟨k, call⟩ : AnyCall) = ⟨_, .addCourse code term⟩ ∧
      (m.serve (.addCourse code term)).1 = .ok r := by
  cases call with
  | fetchPlan term => exact absurd (by rw [serve_fetchPlan]) moved
  | addCourse code term =>
    rcases serve_addCourse m code term with ⟨e, refused⟩ | ⟨c, lastId, -, served⟩
    · exact absurd (by rw [refused]) moved
    · exact ⟨code, term, _, rfl, congrArg Prod.fst served⟩
  | removeCourse id => exact absurd (by rw [serve_removeCourse]) moved
  | refreshSections id force => exact absurd (by rw [serve_refreshSections]; rfl) moved
  | selectSections id ids =>
    rcases serve_selectSections m id ids with ⟨e, refused⟩ | served
    · exact absurd (by rw [refused]) moved
    · exact absurd (by rw [served]; rfl) moved
  | autoBuild => exact absurd rfl moved
  | reset term => exact absurd (by rw [serve_reset]) moved

theorem term_of_serve {k : Kind} (call : Call k) (moved : (m.serve call).2.term ≠ m.term) :
    ∃ t, (⟨k, call⟩ : AnyCall) = ⟨_, .fetchPlan (some t)⟩ := by
  rw [serve_term] at moved
  cases call with
  | fetchPlan term =>
    cases term with
    | none => exact absurd rfl moved
    | some t => exact ⟨t, rfl⟩
  | _ => exact absurd rfl moved

/-- A call that goes by a course leaves the others as they are. -/
theorem filter_serve {k : Kind} (call : Call k) {id : Int} (here : call.course? = some id) :
    (m.serve call).2.courses.filter (·.id ≠ id) = m.courses.filter (·.id ≠ id) := by
  cases call with
  | removeCourse k =>
    obtain rfl : k = id := Option.some.inj here
    rw [serve_removeCourse, List.filter_filter]
    simp
  | refreshSections k force =>
    obtain rfl : k = id := Option.some.inj here
    rw [serve_refreshSections]
    exact filter_updateFirst (refreshed_id m force) m.courses
  | selectSections k ids =>
    obtain rfl : k = id := Option.some.inj here
    rcases serve_selectSections m k ids with ⟨e, refused⟩ | served
    · rw [refused]
    · have keeps : ∀ c, (choose ids c).id = c.id := fun _ => rfl
      rw [served]
      exact filter_updateFirst keeps m.courses
  | _ => cases here

theorem Reread.refl (m : Memory) (id : Int) (c : CourseRecord) : Reread m id c c := by
  refine ⟨fun _ => rfl, rfl, List.forall₂_same.mpr fun s _ => ⟨rfl, ?_⟩⟩
  exact fun changed => absurd rfl changed

theorem reread_refreshed (m : Memory) {id : Int} {c : CourseRecord} (here : c.id = id) :
    Reread m id c (m.refreshed true c) := by
  unfold refreshed
  cases entry : m.catalogEntry? c.code with
  | none => exact .refl m id c
  | some template =>
    refine ⟨fun other => absurd here other, rfl, ?_⟩
    show List.Forall₂ _ c.sections (c.sections.map (refreshSection template))
    rw [List.forall₂_map_right_iff, List.forall₂_same]
    intro s _
    unfold refreshSection
    cases found : template.sections.find? (·.code = s.code) with
    | none => exact ⟨rfl, fun changed => absurd rfl changed⟩
    | some fresh =>
      have code : fresh.code = s.code := by simpa using List.find?_some found
      refine ⟨rfl, fun _ => ⟨template, entry, ?_⟩⟩
      exact List.mem_map.mpr ⟨fresh, List.mem_of_find?_eq_some found, code⟩

/-- Refreshing a course once more changes nothing. -/
theorem update_refreshed (m : Memory) (id : Int) (force : Bool) :
    (m.update id (m.refreshed force)).update id (m.refreshed force) =
      m.update id (m.refreshed force) := by
  have twice : m.refreshed force ∘ m.refreshed force = m.refreshed force :=
    funext (refreshed_refreshed m force)
  have courses : updateFirst id (m.refreshed force) (updateFirst id (m.refreshed force) m.courses) =
      updateFirst id (m.refreshed force) m.courses := by
    rw [updateFirst_updateFirst (refreshed_id m force), twice]
  exact congrArg (fun courses => { m with courses := courses }) courses

theorem reselected_autoBuild (courseIds : (m.courses.map (·.id)).Nodup) :
    List.Forall₂ (Reselected m) m.courses m.autoBuild.courses := by
  show List.Forall₂ (Reselected m) m.courses (m.courses.map _)
  rw [List.forall₂_map_right_iff, List.forall₂_same]
  intro c member
  have shown : m.plan.hasCourse c.id = m.inScope c := hasCourse_plan courseIds member
  by_cases inside : m.inScope c = true
  · have among : c ∈ m.snapshot.courses := List.mem_filter.mpr ⟨member, inside⟩
    rw [if_pos (shown.trans inside)]
    refine ⟨fun outside => absurd among outside, rfl, ?_⟩
    show List.Forall₂ _ c.sections (c.sections.map _)
    rw [List.forall₂_map_right_iff, List.forall₂_same]
    exact fun s _ => rfl
  · rw [if_neg (shown ▸ inside)]
    exact ⟨fun _ => rfl, rfl, List.forall₂_same.mpr fun s _ => rfl⟩

/-- A call to a store in which no course id repeats touches only what it names. -/
theorem frame_of_nodup (courseIds : (m.courses.map (·.id)).Nodup) : Frame m := by
  refine ⟨?refused, ?catalog, ?term, ?lastId, ?others, ?fetched, ?added, ?reset, ?built, ?unforced,
    ?forced, ?twice⟩
  case refused => exact fun call e => serve_error
  case catalog => exact fun call => serve_catalog m call.2
  case term => exact fun call => term_of_serve call.2
  case lastId => exact fun call => lastId_of_serve call.2
  case others => exact fun call id => filter_serve call.2
  case fetched =>
    intro term
    rw [serve_fetchPlan]
  case added =>
    intro code term r accepted
    rcases serve_addCourse m code term with ⟨e, refused⟩ | ⟨c, lastId, -, served⟩
    · rw [refused] at accepted
      cases accepted
    · exact ⟨c, congrArg (·.2.courses) served⟩
  case reset =>
    intro term
    rw [serve_reset]
    refine ⟨List.filter_sublist, fun c => ?_⟩
    rw [List.mem_filter]
    cases term <;> simp
  case built => exact reselected_autoBuild courseIds
  case unforced =>
    intro id
    rw [serve_refreshSections]
    refine update_eq_self fun c _ => ?_
    unfold refreshed
    split <;> rfl
  case forced =>
    intro id
    rw [serve_refreshSections]
    apply forall₂_updateFirst (Reread.refl m id)
    exact fun c found => reread_refreshed m (by simpa using List.find?_some found)
  case twice =>
    intro id force
    have found : ((m.update id (m.refreshed force)).course? id).isSome = (m.course? id).isSome := by
      rw [course?, update, find?_updateFirst _ (refreshed_id m force), if_pos rfl, Option.isSome_map]
      rfl
    rw [serve_refreshSections m, serve_refreshSections, found]
    show (if (m.course? id).isSome then Except.ok ((m.update id (m.refreshed force)).update id
        (m.refreshed force)).snapshot else .error (noCourse id),
      (m.update id (m.refreshed force)).update id (m.refreshed force)) = _
    rw [update_refreshed]

/-- A store with one course in two terms. The catalog lists its lecture with another room and more
seats, and does not know its recitation. -/
def twoTerms : Memory where
  courses :=
    [{ id := 1, code := "CS 1713", term := "202620"
       sections :=
         [{ id := 11, courseId := 1, code := "L1", capacity := some 30, selectedCount := some 4
            room := some "NPB 1.226", selected := true },
          { id := 12, courseId := 1, code := "R1", capacity := some 15 }] },
     { id := 2, code := "CS 1713", term := "202710"
       sections := [{ id := 21, courseId := 2, code := "L1", capacity := some 30 }] }]
  catalog :=
    [{ id := 0, code := "cs 1713", term := ""
       sections :=
         [{ id := 0, courseId := 0, code := "L1", capacity := some 90, selectedCount := some 7
            room := some "BB 3.04" }] }]
  term := some "202620"
  lastId := 21

theorem frame_of_nodup_twoTerms :
    (twoTerms.courses.map (·.id)).Nodup ∧ Frame twoTerms ∧
      (twoTerms.serve (.refreshSections 1 true)).2.courses.map
          (fun c => c.sections.map fun s => (s.capacity, s.selectedCount, s.selected)) =
        [[(some 90, some 4, true), (some 15, none, false)], [(some 30, none, false)]] := by
  have courseIds : (twoTerms.courses.map (·.id)).Nodup := by decide
  exact ⟨courseIds, frame_of_nodup courseIds, by decide +kernel⟩

end Memory

end Timetable.Store
