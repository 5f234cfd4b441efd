import Timetable.Proofs.Store.Selection

/-!
# When the store replaces a selection, and with what

A selection is accepted when the store has the course, each listed section is one of its sections,
and no two of those are of one kind (`Selectable`). The first course with the id is meant, and of an
accepted selection every section of it is `Flagged`: it is selected when it is listed, and its
counter goes along with the flag. Nothing else of the store changes, and nothing at all when the
selection is refused. Main statement: `Memory.selectSections_exact`.
-/

namespace Timetable.Store

/-! ## One section -/

/-- The section is selected when it is listed. Its counter goes up with the flag and down with the
flag, no further than the counters go, and otherwise stays what it was. -/
structure Flagged (ids : List Int) (s s' : SectionRecord) : Prop where
  selected : s'.selected = true ↔ s.id ∈ ids
  up : s.selected = false → s'.selected = true →
    s'.selectedCount = some (min (s.selectedCount.getD 0 + 1) 2147483647)
  down : s.selected = true → s'.selected = false →
    s'.selectedCount = some (max (s.selectedCount.getD 0 - 1) 0)
  unchanged : s'.selected = s.selected → s'.selectedCount = s.selectedCount
  rest : s' = { s with selected := s'.selected, selectedCount := s'.selectedCount }

theorem flagged_setSelected (ids : List Int) (s : SectionRecord) :
    Flagged ids s (Memory.setSelected s (s.id ∈ IdSet.ofList ids)) := by
  have flag : (Memory.setSelected s (s.id ∈ IdSet.ofList ids)).selected = decide (s.id ∈ ids) :=
    decide_eq_decide.mpr IdSet.mem_ofList
  have count : (Memory.setSelected s (s.id ∈ IdSet.ofList ids)).selectedCount =
      if s.selected = false ∧ s.id ∈ ids then some (min (s.selectedCount.getD 0 + 1) 2147483647)
      else if s.selected = true ∧ s.id ∉ ids then some (max (s.selectedCount.getD 0 - 1) 0)
      else s.selectedCount := by
    simp [Memory.setSelected, maxCount]
  refine ⟨?selected, ?up, ?down, ?unchanged, rfl⟩
  case selected => rw [flag, decide_eq_true_iff]
  case up =>
    intro off on
    rw [flag, decide_eq_true_iff] at on
    rw [count, if_pos ⟨off, on⟩]
  case down =>
    intro on off
    rw [flag, decide_eq_false_iff_not] at off
    rw [count, if_neg (fun both => off both.2), if_pos ⟨on, off⟩]
  case unchanged =>
    intro same
    rw [flag] at same
    rw [count, ← same]
    simp

theorem forall₂_choose (ids : List Int) (c : CourseRecord) :
    List.Forall₂ (Flagged ids) c.sections (choose ids c).sections := by
  rw [choose, List.forall₂_map_right_iff, List.forall₂_same]
  exact fun s _ => flagged_setSelected ids s

/-! ## One course -/

/-- Each listed section is in the course, and no two of those are of one kind. -/
structure Selectable (ids : List Int) (c : CourseRecord) : Prop where
  inside : ∀ i ∈ ids, ∃ s ∈ c.sections, s.id = i
  single : c.sections.Pairwise fun a b =>
    a.id ∈ ids → b.id ∈ ids → typeKey a.code ≠ typeKey b.code

/-- The first course with the id, and the courses before and behind it. -/
structure FirstWith (id : Int) (courses before : List CourseRecord) (c : CourseRecord)
    (after : List CourseRecord) : Prop where
  whole : courses = before ++ c :: after
  here : c.id = id
  first : ∀ x ∈ before, x.id ≠ id

namespace Memory

variable {m : Memory} {id : Int} {ids : List Int} {c : CourseRecord}

theorem course?_eq_some_iff :
    m.course? id = some c ↔ ∃ before after, FirstWith id m.courses before c after := by
  rw [course?, List.find?_eq_some_iff_append]
  constructor
  · rintro ⟨here, before, after, whole, first⟩
    exact ⟨before, after, whole, of_decide_eq_true here, by simpa using first⟩
  · rintro ⟨before, after, whole, here, first⟩
    exact ⟨decide_eq_true here, before, after, whole, by simpa using first⟩

theorem exists_firstWith_iff {P : CourseRecord → Prop} :
    (∃ before c after, FirstWith id m.courses before c after ∧ P c) ↔
      ∃ c, m.course? id = some c ∧ P c := by
  constructor
  · rintro ⟨before, c, after, first, holds⟩
    exact ⟨c, course?_eq_some_iff.mpr ⟨before, after, first⟩, holds⟩
  · rintro ⟨c, found, holds⟩
    obtain ⟨before, after, first⟩ := course?_eq_some_iff.mp found
    exact ⟨before, c, after, first, holds⟩

theorem course?_eq_none_iff : m.course? id = none ↔ ∀ c ∈ m.courses, c.id ≠ id := by
  simp [course?]

theorem updateFirst_eq {courses before after : List CourseRecord}
    (first : FirstWith id courses before c after) (change : CourseRecord → CourseRecord) :
    updateFirst id change courses = before ++ change c :: after := by
  obtain ⟨rfl, here, others⟩ := first
  induction before with
  | nil => exact if_pos here
  | cons x rest ih =>
    obtain ⟨other, others⟩ := List.forall_mem_cons.mp others
    rw [List.cons_append, updateFirst, if_neg other, ih others, List.cons_append]

theorem selectable_iff :
    Selectable ids c ↔ (∀ i ∈ ids, ∃ s ∈ c.sections, s.id = i) ∧
      ((c.sections.filter (·.id ∈ ids)).map (typeKey ·.code)).Nodup := by
  have kinds : ((c.sections.filter (·.id ∈ ids)).map (typeKey ·.code)).Nodup ↔
      c.sections.Pairwise fun a b =>
        a.id ∈ ids → b.id ∈ ids → typeKey a.code ≠ typeKey b.code := by
    apply List.pairwise_map.trans
    apply List.pairwise_filter.trans
    simp only [decide_eq_true_eq]
  rw [kinds]
  exact ⟨fun ⟨inside, single⟩ => ⟨inside, single⟩, fun ⟨inside, single⟩ => ⟨inside, single⟩⟩

theorem selectSections_eq_ok_iff_selectable {m' : Memory} :
    m.selectSections id ids = .ok m' ↔
      ∃ c, m.course? id = some c ∧ Selectable ids c ∧ m.update id (choose ids) = m' := by
  rw [selectSections_eq_ok_iff]
  simp only [selectable_iff, and_assoc]

/-- A selection that is refused for another reason than the course is invalid. -/
theorem selectSections_error {e : Error} (refused : m.selectSections id ids = .error e) :
    m.course? id = none ∧ e = noCourse id ∨
      ∃ c, m.course? id = some c ∧ ¬Selectable ids c ∧ ∃ why, e = .invalid why := by
  cases found : m.course? id with
  | none =>
    rw [selectSections, found] at refused
    exact Or.inl ⟨rfl, (Except.error.inj refused).symm⟩
  | some c =>
    refine Or.inr ⟨c, rfl, ?_, ?_⟩
    · intro selectable
      have accepted := selectSections_eq_ok_iff_selectable.mpr ⟨c, found, selectable, rfl⟩
      rw [accepted] at refused
      cases refused
    · simp only [selectSections, found] at refused
      split at refused
      · exact ⟨_, (Except.error.inj refused).symm⟩
      · split at refused
        · exact ⟨_, (Except.error.inj refused).symm⟩
        · cases refused

theorem selectSections_eq_notFound_iff :
    (∃ what, m.selectSections id ids = .error (.notFound what)) ↔ ∀ c ∈ m.courses, c.id ≠ id := by
  rw [← course?_eq_none_iff]
  constructor
  · rintro ⟨what, refused⟩
    rcases selectSections_error refused with ⟨absent, -⟩ | ⟨c, -, -, why, ⟨⟩⟩
    exact absent
  · intro absent
    refine ⟨"course " ++ toString id, ?_⟩
    rw [selectSections, absent]
    rfl

theorem selectSections_eq_invalid_iff :
    (∃ why, m.selectSections id ids = .error (.invalid why)) ↔
      ∃ c, m.course? id = some c ∧ ¬Selectable ids c := by
  constructor
  · rintro ⟨why, refused⟩
    rcases selectSections_error refused with ⟨-, other⟩ | ⟨c, found, unfit, -⟩
    · cases other
    · exact ⟨c, found, unfit⟩
  · rintro ⟨c, found, unfit⟩
    cases result : m.selectSections id ids with
    | ok m' =>
      obtain ⟨c', found', fit, -⟩ := selectSections_eq_ok_iff_selectable.mp result
      rw [found] at found'
      cases found'
      exact absurd fit unfit
    | error e =>
      rcases selectSections_error result with ⟨absent, -⟩ | ⟨_, -, -, why, rfl⟩
      · rw [found] at absent
        cases absent
      · exact ⟨why, rfl⟩

/-- Answering with the plan keeps the error of a change that failed. -/
theorem answerPlan_eq_error_iff {changed : Except Error Memory} {e : Error} :
    (m.answerPlan changed).1 = .error e ↔ changed = .error e := by
  cases changed with
  | ok m' => simp [answerPlan]
  | error e' => simp [answerPlan]

theorem answerPlan_eq_ok_iff {changed : Except Error Memory} {plan : PlanRecord} :
    (m.answerPlan changed).1 = .ok plan ↔ ∃ m', changed = .ok m' ∧ m'.snapshot = plan := by
  cases changed with
  | ok m' => simp [answerPlan]
  | error e' => simp [answerPlan]

/-- A selection is accepted exactly when the first course with the id has each listed section and no
two of them are of one kind. Without such a course it is not found, and otherwise invalid. A
refusal changes nothing. When it is accepted, the sections of the course are flagged, all else stays
as it was, and the answer is the plan that the store then holds. -/
theorem selectSections_exact (m : Memory) (id : Int) (ids : List Int) :
    ∃ reply m', m.serve (.selectSections id ids) = (reply, m') ∧
      ((∃ plan, reply = .ok plan) ↔
        ∃ before c after, FirstWith id m.courses before c after ∧ Selectable ids c) ∧
      ((∃ what, reply = .error (.notFound what)) ↔ ∀ c ∈ m.courses, c.id ≠ id) ∧
      ((∃ why, reply = .error (.invalid why)) ↔
        ∃ before c after, FirstWith id m.courses before c after ∧ ¬Selectable ids c) ∧
      (∀ e, reply = .error e → m' = m) ∧
      ∀ plan, reply = .ok plan → m'.snapshot = plan ∧
        ∃ before c after sections, FirstWith id m.courses before c after ∧
          List.Forall₂ (Flagged ids) c.sections sections ∧
          m' = { m with courses := before ++ { c with sections := sections } :: after } := by
  refine ⟨_, _, rfl, ?accepted, ?notFound, ?invalid, fun e => answerPlan_error, ?done⟩
  case accepted =>
    rw [exists_firstWith_iff]
    constructor
    · rintro ⟨plan, answered⟩
      obtain ⟨m', accepted, -⟩ := answerPlan_eq_ok_iff.mp answered
      obtain ⟨c, found, selectable, -⟩ := selectSections_eq_ok_iff_selectable.mp accepted
      exact ⟨c, found, selectable⟩
    · rintro ⟨c, found, selectable⟩
      have accepted := selectSections_eq_ok_iff_selectable.mpr ⟨c, found, selectable, rfl⟩
      exact ⟨_, answerPlan_eq_ok_iff.mpr ⟨_, accepted, rfl⟩⟩
  case notFound =>
    rw [← selectSections_eq_notFound_iff]
    exact exists_congr fun what => answerPlan_eq_error_iff
  case invalid =>
    rw [exists_firstWith_iff, ← selectSections_eq_invalid_iff]
    exact exists_congr fun why => answerPlan_eq_error_iff
  case done =>
    intro plan answered
    obtain ⟨m', accepted, -⟩ := answerPlan_eq_ok_iff.mp answered
    obtain ⟨c, found, -, changed⟩ := selectSections_eq_ok_iff_selectable.mp accepted
    obtain ⟨before, after, first⟩ := course?_eq_some_iff.mp found
    refine ⟨answerPlan_ok answered, before, c, after, (choose ids c).sections, first,
      forall₂_choose ids c, ?_⟩
    show (m.answerPlan (m.selectSections id ids)).2 = _
    rw [accepted, ← changed]
    show m.update id (choose ids) = _
    rw [update, updateFirst_eq first]
    rfl

/-- A store in which two courses have one id. In the first, one counter is at its end, one is
missing, and one section is selected without having been counted. -/
def namesakes : Memory where
  courses :=
    [{ id := 1, code := "CS 1713", term := "202620"
       sections :=
         [{ id := 11, courseId := 1, code := "L1", selectedCount := some 2147483647 },
          { id := 12, courseId := 1, code := "L2", selected := true },
          { id := 13, courseId := 1, code := "R1" }] },
     { id := 1, code := "MAT 1214", term := "202620"
       sections := [{ id := 11, courseId := 1, code := "001" }] }]
  catalog := []
  term := none
  lastId := 13

theorem selectSections_exact_namesakes :
    ∃ plan m', namesakes.serve (.selectSections 1 [11, 11]) = (.ok plan, m') ∧
      m'.snapshot = plan ∧
      (∃ before c after, FirstWith 1 namesakes.courses before c after ∧ Selectable [11, 11] c) ∧
      m'.courses.map (fun c => c.sections.map fun s => (s.selected, s.selectedCount)) =
        [[(true, some 2147483647), (false, some 0), (false, none)], [(false, none)]] := by
  obtain ⟨reply, m', served, accepted, -, -, -, done⟩ := selectSections_exact namesakes 1 [11, 11]
  obtain ⟨rfl, rfl⟩ := Prod.ext_iff.mp served
  exact ⟨_, _, rfl, (done _ rfl).1, accepted.mp ⟨_, rfl⟩, by decide +kernel⟩

end Memory

end Timetable.Store
