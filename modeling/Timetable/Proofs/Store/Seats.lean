import Timetable.Proofs.Store.Frame

/-!
# Seat counters

The counter of a section counts its own selection with those of the others. A flag that goes up or
down takes the counter along, so that the number of the others stays what it was, as long as the
counter has room at both ends (`SectionRecord.Roomy`). Whatever is called, each section that the
store has afterwards is one that it had before and goes on with as many others, or its id is new
(`Memory.continues_or_lt`); an id that was given out is never new again, so this holds over a whole
run. Selecting and building lose no section, so what they do to the counters is told section by
section (`Memory.forall₂_continues`). Main statement: `Memory.others_kept`.
-/

namespace Timetable

namespace SectionRecord

/-- How many hold the section. A missing counter is zero. -/
def holders (s : SectionRecord) : Int := s.selectedCount.getD 0

/-- How many hold it besides its own selection. -/
def others (s : SectionRecord) : Int := s.holders - if s.selected = true then 1 else 0

/-- The counter is one, and has room: it counts the section's own selection, and without that it can
still go up. -/
structure Roomy (s : SectionRecord) : Prop where
  nonneg : 0 ≤ s.holders
  bounded : s.holders ≤ maxCount
  counted : s.selected = true → 1 ≤ s.holders
  room : s.selected = false → s.holders < maxCount

theorem roomy_iff {s : SectionRecord} : s.Roomy ↔ 0 ≤ s.others ∧ s.others < maxCount := by
  cases on : s.selected with
  | true =>
    have others : s.others = s.holders - 1 := by simp [SectionRecord.others, on]
    constructor
    · intro roomy
      have counted := roomy.counted on
      have bounded := roomy.bounded
      omega
    · intro between
      refine ⟨?_, ?_, fun _ => ?_, fun off => absurd (on.symm.trans off) Bool.noConfusion⟩ <;> omega
  | false =>
    have others : s.others = s.holders := by simp [SectionRecord.others, on]
    constructor
    · intro roomy
      have nonneg := roomy.nonneg
      have room := roomy.room on
      omega
    · intro between
      refine ⟨?_, ?_, fun on' => absurd (on.symm.trans on') Bool.noConfusion, fun _ => ?_⟩ <;> omega

/-- A section later on: the same id, and as many others, if its counter has room. -/
structure Continues (s s' : SectionRecord) : Prop where
  id : s'.id = s.id
  others : s.Roomy → s'.others = s.others

theorem Continues.refl (s : SectionRecord) : Continues s s := ⟨rfl, fun _ => rfl⟩

theorem Continues.roomy {s s' : SectionRecord} (continues : Continues s s') (roomy : s.Roomy) :
    s'.Roomy := by
  rw [roomy_iff, continues.others roomy, ← roomy_iff]
  exact roomy

theorem Continues.trans {s t u : SectionRecord} (first : Continues s t) (second : Continues t u) :
    Continues s u := by
  refine ⟨second.id.trans first.id, fun roomy => ?_⟩
  exact (second.others (first.roomy roomy)).trans (first.others roomy)

end SectionRecord

namespace Store

open SectionRecord

/-- A flag takes the counter along. -/
theorem continues_setSelected (s : SectionRecord) (on : Bool) :
    Continues s (Memory.setSelected s on) := by
  refine ⟨rfl, fun roomy => ?_⟩
  obtain ⟨nonneg, bounded, counted, room⟩ := roomy
  cases before : s.selected with
  | true =>
    have counted := counted before
    cases on with
    | true => simp [Memory.setSelected, SectionRecord.others, holders, before]
    | false =>
      simp [Memory.setSelected, SectionRecord.others, holders, before] at counted ⊢
      omega
  | false =>
    have room := room before
    cases on with
    | true =>
      simp [Memory.setSelected, SectionRecord.others, holders, before] at room ⊢
      omega
    | false => simp [Memory.setSelected, SectionRecord.others, holders, before]

theorem continues_refreshSection (template : CourseRecord) (s : SectionRecord) :
    Continues s (Memory.refreshSection template s) := by
  unfold Memory.refreshSection
  split
  · exact .refl s
  · exact ⟨rfl, fun _ => rfl⟩

theorem forall₂_choose_continues (ids : List Int) (c : CourseRecord) :
    List.Forall₂ Continues c.sections (choose ids c).sections := by
  rw [choose, List.forall₂_map_right_iff, List.forall₂_same]
  exact fun s _ => continues_setSelected s _

/-- Whether a call neither adds a course nor removes one. -/
def Call.keepsCourses : {k : Kind} → Call k → Bool
  | _, .fetchPlan _ => true
  | _, .addCourse .. => false
  | _, .removeCourse _ => false
  | _, .refreshSections .. => true
  | _, .selectSections .. => true
  | _, .autoBuild => true
  | _, .reset _ => false

namespace Memory

variable {m : Memory}

/-- All sections of a store, course by course. -/
def sections (m : Memory) : List SectionRecord := m.courses.flatMap (·.sections)

/-- Whether a section with this id is selected. -/
def Selects (m : Memory) (id : Int) : Prop := ∃ s ∈ m.sections, s.id = id ∧ s.selected = true

/-! ## What a call does to the sections -/

theorem forall₂_sections {m' : Memory}
    (each : List.Forall₂ (fun c c' => List.Forall₂ Continues c.sections c'.sections)
      m.courses m'.courses) : List.Forall₂ Continues m.sections m'.sections :=
  List.rel_flatMap each fun _ _ continues => continues

theorem forall₂_update {id : Int} {change : CourseRecord → CourseRecord}
    (each : ∀ c, List.Forall₂ Continues c.sections (change c).sections) :
    List.Forall₂ Continues m.sections (m.update id change).sections := by
  apply forall₂_sections
  apply forall₂_updateFirst (fun c => List.forall₂_same.mpr fun s _ => .refl s)
  exact fun c _ => each c

/-- A call that keeps the courses goes on with every section. -/
theorem forall₂_continues {k : Kind} (call : Call k) (keeps : call.keepsCourses = true) :
    List.Forall₂ Continues m.sections (m.serve call).2.sections := by
  have same : List.Forall₂ Continues m.sections m.sections :=
    List.forall₂_same.mpr fun s _ => .refl s
  cases call with
  | fetchPlan term =>
    rw [serve_fetchPlan]
    exact same
  | refreshSections id force =>
    rw [serve_refreshSections]
    apply forall₂_update
    intro c
    unfold refreshed
    split
    · exact List.forall₂_same.mpr fun s _ => .refl s
    · split
      · rw [List.forall₂_map_right_iff, List.forall₂_same]
        exact fun s _ => continues_refreshSection _ s
      · exact List.forall₂_same.mpr fun s _ => .refl s
  | selectSections id ids =>
    rcases serve_selectSections m id ids with ⟨e, refused⟩ | served
    · rw [refused]
      exact same
    · rw [served]
      exact forall₂_update (forall₂_choose_continues ids)
  | autoBuild =>
    apply forall₂_sections
    show List.Forall₂ _ m.courses (m.courses.map _)
    rw [List.forall₂_map_right_iff, List.forall₂_same]
    intro c _
    split
    · show List.Forall₂ Continues c.sections (c.sections.map _)
      rw [List.forall₂_map_right_iff, List.forall₂_same]
      exact fun s _ => continues_setSelected s _
    · exact List.forall₂_same.mpr fun s _ => .refl s
  | _ => cases keeps

/-- A section that a call leaves goes on with one that was there, or its id is new. -/
theorem continues_or_lt {k : Kind} (call : Call k) {s' : SectionRecord}
    (member : s' ∈ (m.serve call).2.sections) :
    (∃ s ∈ m.sections, Continues s s') ∨ m.lastId < s'.id := by
  have stays {m' : Memory} (thinned : m'.courses.Sublist m.courses) (member : s' ∈ m'.sections) :
      ∃ s ∈ m.sections, Continues s s' := ⟨s', (thinned.flatMap _).subset member, .refl s'⟩
  by_cases keeps : call.keepsCourses = true
  · exact Or.inl (exists_of_mem_forall₂ (forall₂_continues call keeps) member)
  · cases call with
    | addCourse code term =>
      rcases serve_addCourse m code term with ⟨e, refused⟩ | ⟨c, lastId, newcomer, served⟩
      · rw [refused] at member
        exact Or.inl (stays (.refl _) member)
      · rw [served] at member
        have listed : s' ∈ (m.courses ++ [c]).flatMap (·.sections) := member
        rw [List.flatMap_append, List.flatMap_singleton] at listed
        rcases List.mem_append.mp listed with held | new
        · exact Or.inl ⟨s', held, .refl s'⟩
        · exact Or.inr (newcomer.lt (List.mem_cons_of_mem _ (List.mem_map_of_mem new)))
    | removeCourse id =>
      rw [serve_removeCourse] at member
      exact Or.inl (stays List.filter_sublist member)
    | reset term =>
      rw [serve_reset] at member
      exact Or.inl (stays List.filter_sublist member)
    | _ => exact absurd rfl keeps

/-! ## Runs -/

theorem forall₂_continues_trans {first second third : List SectionRecord}
    (early : List.Forall₂ Continues first second) (late : List.Forall₂ Continues second third) :
    List.Forall₂ Continues first third := by
  induction early generalizing third with
  | nil => exact late
  | cons here _ ih =>
    rcases late with _ | ⟨there, late⟩
    exact .cons (here.trans there) (ih late)

/-- Every section with this id has a counter with room, and so many others hold it. -/
def Held (id n : Int) (m : Memory) : Prop :=
  ∀ s ∈ m.sections, s.id = id → s.Roomy ∧ s.others = n

theorem Held.serve {id n : Int} (held : Held id n m) (known : id ≤ m.lastId) {k : Kind}
    (call : Call k) : Held id n (m.serve call).2 := by
  intro s' member here
  rcases continues_or_lt call member with ⟨s, among, continues⟩ | new
  · obtain ⟨roomy, others⟩ := held s among (continues.id.symm.trans here)
    exact ⟨continues.roomy roomy, (continues.others roomy).trans others⟩
  · omega

theorem Held.after {id n : Int} (held : Held id n m) (unrepeated : Unrepeated m)
    (known : id ≤ m.lastId) (calls : List AnyCall) : Held id n (m.after calls) := by
  induction calls generalizing m with
  | nil => exact held
  | cons call rest ih =>
    have grown := (unrepeated.change_of_call call.2).lastId_le
    exact ih (held.serve known call.2) (unrepeated.serve call.2) (Int.le_trans known grown)

theorem forall₂_and_mem {xs ys : List SectionRecord} (related : List.Forall₂ Continues xs ys) :
    List.Forall₂ (fun x y => (x ∈ xs ∧ y ∈ ys) ∧ Continues x y) xs ys := by
  induction related with
  | nil => exact .nil
  | cons first _ ih =>
    refine .cons ⟨⟨List.mem_cons_self, List.mem_cons_self⟩, first⟩ (ih.imp ?_)
    intro x y pair
    exact ⟨⟨List.mem_cons_of_mem _ pair.1.1, List.mem_cons_of_mem _ pair.1.2⟩, pair.2⟩

theorem forall₂_after (calls : List AnyCall) (keeps : ∀ call ∈ calls, call.2.keepsCourses = true) :
    List.Forall₂ Continues m.sections (m.after calls).sections := by
  induction calls generalizing m with
  | nil => exact List.forall₂_same.mpr fun s _ => .refl s
  | cons call rest ih =>
    obtain ⟨first, keeps⟩ := List.forall_mem_cons.mp keeps
    exact forall₂_continues_trans (forall₂_continues call.2 first) (ih keeps)

section Unrepeated

variable (unrepeated : Unrepeated m)
include unrepeated

theorem Unrepeated.nodup_sections : (m.sections.map (·.id)).Nodup := by
  rw [sections, List.map_flatMap]
  exact unrepeated.sectionIds

theorem Unrepeated.le_lastId {s : SectionRecord} (member : s ∈ m.sections) : s.id ≤ m.lastId := by
  obtain ⟨c, among, own⟩ := List.mem_flatMap.mp member
  exact unrepeated.bounded s.id
    (mem_ids among (List.mem_cons_of_mem _ (List.mem_map_of_mem own)))

theorem Unrepeated.selects_iff {s : SectionRecord} (member : s ∈ m.sections) :
    m.Selects s.id ↔ s.selected = true := by
  constructor
  · intro selects
    obtain ⟨t, among, same, on⟩ := selects
    rwa [List.inj_on_of_nodup_map unrepeated.nodup_sections among member same] at on
  · exact fun on => ⟨s, member, rfl, on⟩

end Unrepeated

/-- Over every run, a section whose counter has room is held by as many others for as long as the
store has it. A run that neither adds nor removes courses and comes back to the selection that there
was brings all such counters back. -/
theorem others_kept {seed : Seed} (courseIds : (seed.plan.courses.map (·.id)).Nodup)
    (sectionIds : (seed.plan.courses.flatMap fun c => c.sections.map (·.id)).Nodup)
    (before later : List AnyCall) :
    (∀ s ∈ ((ofSeed seed).after before).sections, s.Roomy →
      ∀ s' ∈ ((ofSeed seed).after (before ++ later)).sections, s'.id = s.id →
        s'.others = s.others) ∧
      ((∀ call ∈ later, call.2.keepsCourses = true) →
        (∀ id, ((ofSeed seed).after (before ++ later)).Selects id ↔
          ((ofSeed seed).after before).Selects id) →
        List.Forall₂ (fun s s' => s'.id = s.id ∧ (s.Roomy → s'.holders = s.holders))
          ((ofSeed seed).after before).sections
          ((ofSeed seed).after (before ++ later)).sections) := by
  rw [after_append]
  have unrepeated := (unrepeated_ofSeed courseIds sectionIds).after before
  generalize (ofSeed seed).after before = m at unrepeated ⊢
  constructor
  · intro s member roomy s' member' same
    have held : Held s.id s.others m := by
      intro t among here
      rw [List.inj_on_of_nodup_map unrepeated.nodup_sections among member here]
      exact ⟨roomy, rfl⟩
    exact (held.after unrepeated (unrepeated.le_lastId member) later s' member' same).2
  · intro keeps back
    have unrepeated' := unrepeated.after later
    refine (forall₂_and_mem (forall₂_after later keeps)).imp ?_
    intro s s' pair
    obtain ⟨⟨member, member'⟩, continues⟩ := pair
    have flags : s'.selected = true ↔ s.selected = true := by
      rw [← unrepeated.selects_iff member, ← unrepeated'.selects_iff member', continues.id]
      exact back s.id
    refine ⟨continues.id, fun roomy => ?_⟩
    have others := continues.others roomy
    simp only [SectionRecord.others, flags] at others
    omega

/-- A course with two lectures of which one is selected. In the catalog it has more seats and
another counter. -/
def counted : Seed where
  plan :=
    { term := some "202620"
      courses :=
        [{ id := 1, code := "CS 1713", term := "202620"
           sections :=
             [{ id := 11, courseId := 1, code := "L1", capacity := some 30, selectedCount := some 4
                selected := true },
              { id := 12, courseId := 1, code := "L2", capacity := some 30 }] }] }
  catalog :=
    [{ id := 0, code := "cs 1713", term := ""
       sections :=
         [{ id := 0, courseId := 0, code := "L1", capacity := some 90
            selectedCount := some 20 }] }]

/-- The course is added to another term. -/
def repeated : List AnyCall := [⟨_, .addCourse "CS 1713" "202710"⟩]

/-- The other lecture is selected, the plan is built, and the first selection is made again. -/
def movedAndBack : List AnyCall :=
  [⟨_, .selectSections 1 [12]⟩, ⟨_, .refreshSections 1 true⟩, ⟨_, .autoBuild⟩,
    ⟨_, .selectSections 1 [11]⟩]

theorem others_kept_counted :
    (counted.plan.courses.map (·.id)).Nodup ∧
      (counted.plan.courses.flatMap fun c => c.sections.map (·.id)).Nodup ∧
      ((ofSeed counted).after (repeated ++ movedAndBack.take 1)).sections.map (·.holders) =
        [3, 1, 20] ∧
      List.Forall₂ (fun s s' => s'.id = s.id ∧ (s.Roomy → s'.holders = s.holders))
        ((ofSeed counted).after repeated).sections
        ((ofSeed counted).after (repeated ++ movedAndBack)).sections := by
  have courseIds : (counted.plan.courses.map (·.id)).Nodup := by decide
  have sectionIds : (counted.plan.courses.flatMap fun c => c.sections.map (·.id)).Nodup := by
    decide
  have flags : ((ofSeed counted).after (repeated ++ movedAndBack)).sections.map
      (fun s => (s.id, s.selected)) =
        ((ofSeed counted).after repeated).sections.map fun s => (s.id, s.selected) := by
    decide +kernel
  have selects (m : Memory) (id : Int) :
      m.Selects id ↔ (id, true) ∈ m.sections.map fun s => (s.id, s.selected) := by
    simp [Selects]
  refine ⟨courseIds, sectionIds, by decide +kernel, ?_⟩
  apply (others_kept courseIds sectionIds repeated movedAndBack).2
  · simp [movedAndBack, Call.keepsCourses]
  · intro id
    rw [selects, selects, flags]

end Memory

end Store

end Timetable
