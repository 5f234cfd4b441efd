import Timetable.Proofs.Store.Change

/-!
# What every run keeps in the store

A store in order (`WellFormed`) stays so whatever is called, and the last id that was given out never
gets less. It bounds the ids of every state on the way (`Memory.le_lastId_of_prefix`), so an id that
is new is beyond all that the store ever held, removed courses included. Main statement:
`Memory.orderly_ofSeed`.
-/

namespace Timetable

namespace Store

/-- A call of any kind. -/
abbrev AnyCall : Type := (k : Kind) × Call k

namespace Memory

/-- No id of a course or of a section repeats, and every id was given out or came with the seed. -/
structure Unrepeated (m : Memory) : Prop where
  courseIds : (m.courses.map (·.id)).Nodup
  sectionIds : (m.courses.flatMap fun c => c.sections.map (·.id)).Nodup
  bounded : ∀ id ∈ m.ids, id ≤ m.lastId

/-- Ids do not repeat, no course has two selected sections of a kind, and no term has two courses
of one code. -/
structure Tidy (courses : List CourseRecord) : Prop where
  courseIds : (courses.map (·.id)).Nodup
  sectionIds : (courses.flatMap fun c => c.sections.map (·.id)).Nodup
  single : ∀ c ∈ courses, c.Single
  codes : courses.Pairwise fun c c' => c.term = c'.term → Text.sameLetters c.code c'.code = false

/-- The courses are in order, and every id was given out or came with the seed. -/
structure WellFormed (m : Memory) : Prop where
  tidy : Tidy m.courses
  bounded : ∀ id ∈ m.ids, id ≤ m.lastId

variable {m m' : Memory}

theorem WellFormed.unrepeated (orderly : WellFormed m) : Unrepeated m :=
  ⟨orderly.tidy.courseIds, orderly.tidy.sectionIds, orderly.bounded⟩

/-! ## What stays in order -/

section Unrepeated

variable (unrepeated : Unrepeated m)
include unrepeated

/-- A course that is new has none of the ids of the store. -/
theorem Unrepeated.ne_of_newcomer {c : CourseRecord} (newcomer : Newcomer m c) {old new : Int}
    (held : old ∈ m.ids) (own : new ∈ idsOf c) : old ≠ new := by
  have bounded := unrepeated.bounded old held
  have beyond := newcomer.lt own
  omega

theorem Unrepeated.change (change : Change m m') : Unrepeated m' := by
  refine ⟨?courseIds, ?sectionIds, ?bounded⟩
  case courseIds =>
    cases change with
    | kept courses thinned restyled lastId =>
      rw [map_restyled restyled (·.id) fun c c' same => (List.cons.inj same.ids).1]
      exact (thinned.map _).nodup unrepeated.courseIds
    | added c newcomer courses lastId =>
      rw [courses, List.map_append, List.nodup_append]
      refine ⟨unrepeated.courseIds, List.nodup_singleton _, fun old held new among => ?_⟩
      obtain ⟨c', member, rfl⟩ := List.mem_map.mp held
      obtain rfl := List.mem_singleton.mp among
      exact unrepeated.ne_of_newcomer newcomer (mem_ids member List.mem_cons_self)
        List.mem_cons_self
  case sectionIds =>
    cases change with
    | kept courses thinned restyled lastId =>
      rw [List.flatMap, map_restyled restyled (fun c => c.sections.map (·.id))
        fun c c' same => (List.cons.inj same.ids).2]
      exact (thinned.flatMap _).nodup unrepeated.sectionIds
    | added c newcomer courses lastId =>
      rw [courses, List.flatMap_append, List.flatMap_singleton, List.nodup_append]
      refine ⟨unrepeated.sectionIds, newcomer.ids.of_cons.of_cons.nodup,
        fun old held new among => ?_⟩
      obtain ⟨c', member, section_id⟩ := List.mem_flatMap.mp held
      exact unrepeated.ne_of_newcomer newcomer (mem_ids member (List.mem_cons_of_mem _ section_id))
        (List.mem_cons_of_mem _ among)
  case bounded =>
    intro id among
    rcases change.mem_or_lt among with held | ⟨-, bounded⟩
    · have bounded := unrepeated.bounded id held
      have grown := change.lastId_le
      omega
    · exact bounded

theorem Unrepeated.change_of_call {k : Kind} (call : Call k) : Change m (m.serve call).2 :=
  change_serve unrepeated.courseIds unrepeated.sectionIds call

theorem Unrepeated.serve {k : Kind} (call : Call k) : Unrepeated (m.serve call).2 :=
  unrepeated.change (unrepeated.change_of_call call)

end Unrepeated

theorem WellFormed.change (orderly : WellFormed m) (change : Change m m') : WellFormed m' := by
  have unrepeated := orderly.unrepeated.change change
  refine ⟨⟨unrepeated.courseIds, unrepeated.sectionIds, ?single, ?codes⟩, unrepeated.bounded⟩
  case single =>
    intro c' member
    cases change with
    | kept courses thinned restyled lastId =>
      obtain ⟨c, among, same⟩ := exists_of_mem_forall₂ restyled member
      exact same.single (orderly.tidy.single c (thinned.subset among))
    | added c newcomer courses lastId =>
      rcases List.mem_append.mp (courses ▸ member) with held | new
      · exact orderly.tidy.single c' held
      · obtain rfl := List.mem_singleton.mp new
        have none_selected : c'.sections.filter (·.selected) = [] := by
          simpa using newcomer.unselected
        rw [CourseRecord.Single, none_selected]
        exact .nil
  case codes =>
    cases change with
    | kept courses thinned restyled lastId =>
      have named := map_restyled restyled (fun c => (c.term, c.code))
        fun c c' same => by rw [same.term, same.code]
      have apart : (courses.map fun c => (c.term, c.code)).Pairwise fun a b =>
          a.1 = b.1 → Text.sameLetters a.2 b.2 = false :=
        List.pairwise_map.mpr (orderly.tidy.codes.sublist thinned)
      rw [← named] at apart
      exact List.pairwise_map.mp apart
    | added c newcomer courses lastId =>
      rw [courses]
      apply List.pairwise_append.mpr
      refine ⟨orderly.tidy.codes, List.pairwise_singleton _ _, ?_⟩
      intro c' held new among
      obtain rfl := List.mem_singleton.mp among
      exact newcomer.code c' held

theorem WellFormed.change_of_call (orderly : WellFormed m) {k : Kind} (call : Call k) :
    Change m (m.serve call).2 := orderly.unrepeated.change_of_call call

theorem WellFormed.serve (orderly : WellFormed m) {k : Kind} (call : Call k) :
    WellFormed (m.serve call).2 := orderly.change (orderly.change_of_call call)

theorem unrepeated_ofSeed {seed : Seed} (courseIds : (seed.plan.courses.map (·.id)).Nodup)
    (sectionIds : (seed.plan.courses.flatMap fun c => c.sections.map (·.id)).Nodup) :
    Unrepeated (ofSeed seed) := by
  refine ⟨courseIds, sectionIds, fun id among => ?_⟩
  show id ≤ (ofSeed seed).ids.max?.getD 0
  cases greatest : (ofSeed seed).ids.max? with
  | none =>
    rw [List.max?_eq_none_iff.mp greatest] at among
    cases among
  | some last => exact (List.max?_eq_some_iff.mp greatest).2 id among

theorem wellFormed_ofSeed {seed : Seed} (tidy : Tidy seed.plan.courses) :
    WellFormed (ofSeed seed) :=
  ⟨tidy, (unrepeated_ofSeed tidy.courseIds tidy.sectionIds).bounded⟩

/-! ## Runs -/

/-- The store after calls, served one after another. -/
def after (m : Memory) (calls : List AnyCall) : Memory :=
  calls.foldl (fun held call => (held.serve call.2).2) m

theorem after_append (m : Memory) (calls calls' : List AnyCall) :
    m.after (calls ++ calls') = (m.after calls).after calls' := List.foldl_append

theorem Unrepeated.after (unrepeated : Unrepeated m) (calls : List AnyCall) :
    Unrepeated (m.after calls) := by
  induction calls generalizing m with
  | nil => exact unrepeated
  | cons call rest ih => exact ih (unrepeated.serve call.2)

theorem Unrepeated.lastId_le_after (unrepeated : Unrepeated m) (calls : List AnyCall) :
    m.lastId ≤ (m.after calls).lastId := by
  induction calls generalizing m with
  | nil => exact Int.le_refl _
  | cons call rest ih =>
    have grown := (unrepeated.change_of_call call.2).lastId_le
    have later := ih (unrepeated.serve call.2)
    exact Int.le_trans grown later

section Run

variable (orderly : WellFormed m)
include orderly

theorem WellFormed.after (calls : List AnyCall) : WellFormed (m.after calls) := by
  induction calls generalizing m with
  | nil => exact orderly
  | cons call rest ih => exact ih (orderly.serve call.2)

/-- No id that was ever in the store is beyond the last one that was given out. -/
theorem le_lastId_of_prefix {earlier calls : List AnyCall} (early : earlier <+: calls) {id : Int}
    (held : id ∈ (m.after earlier).ids) : id ≤ (m.after calls).lastId := by
  obtain ⟨rest, rfl⟩ := early
  rw [after_append]
  have before := orderly.after earlier
  have bounded := before.bounded id held
  exact Int.le_trans bounded (before.unrepeated.lastId_le_after rest)

end Run

/-- Every section of a course with this id names it. -/
def Owned (id : Int) (m : Memory) : Prop :=
  ∀ c ∈ m.courses, c.id = id → ∀ s ∈ c.sections, s.courseId = id

theorem Owned.change {id : Int} (owned : Owned id m) (change : Change m m') : Owned id m' := by
  intro c' member here s section_of
  cases change with
  | kept courses thinned restyled lastId =>
    obtain ⟨c, earlier, same⟩ := exists_of_mem_forall₂ restyled member
    have named : s.courseId ∈ c.sections.map (·.courseId) :=
      same.owners ▸ List.mem_map_of_mem section_of
    obtain ⟨t, section_of', owner⟩ := List.mem_map.mp named
    have same_id : c'.id = c.id := (List.cons.inj same.ids).1
    rw [← owner]
    exact owned c (thinned.subset earlier) (same_id ▸ here) t section_of'
  | added c newcomer courses lastId =>
    rcases List.mem_append.mp (courses ▸ member) with held | new
    · exact owned c' held here s section_of
    · -- Whatever its id is, a course that is added has sections that name it.
      obtain rfl := List.mem_singleton.mp new
      rw [newcomer.owners s section_of, here]

theorem Owned.after {id : Int} (owned : Owned id m) (orderly : WellFormed m)
    (calls : List AnyCall) : Owned id (m.after calls) := by
  induction calls generalizing m with
  | nil => exact owned
  | cons call rest ih =>
    exact ih (owned.change (orderly.change_of_call call.2)) (orderly.serve call.2)

theorem owned_of_newcomer {c : CourseRecord} (orderly : WellFormed m) (newcomer : Newcomer m c)
    (courses : m'.courses = m.courses ++ [c]) : Owned c.id m' := by
  intro c' member here
  rcases List.mem_append.mp (courses ▸ member) with held | new
  · have bounded := orderly.bounded c'.id (mem_ids held List.mem_cons_self)
    have beyond : m.lastId < c.id := newcomer.lt List.mem_cons_self
    omega
  · obtain rfl := List.mem_singleton.mp new
    exact newcomer.owners

/-- What an accepted addition does after some calls: a course is put behind the others, its ids
ascend from beyond every id that was in the store at any time before, and whatever is called later,
as long as the store has the course its sections name it. -/
structure GivenOut (m : Memory) (before : List AnyCall) (add : AnyCall) (c : CourseRecord) :
    Prop where
  added : (m.after (before ++ [add])).courses = (m.after before).courses ++ [c]
  ascending : (idsOf c).Pairwise (· < ·)
  fresh : ∀ earlier, earlier <+: before → ∀ old ∈ (m.after earlier).ids, ∀ new ∈ idsOf c, old < new
  owned : ∀ later, Owned c.id (m.after (before ++ add :: later))

theorem WellFormed.givenOut (orderly : WellFormed m) {before : List AnyCall} {code term : String}
    {r : PlanRecord} (accepted : ((m.after before).serve (.addCourse code term)).1 = .ok r) :
    ∃ c, GivenOut m before ⟨_, .addCourse code term⟩ c := by
  have orderly_before := orderly.after before
  cases added : (m.after before).addCourse code term with
  | error e =>
    have refused : ((m.after before).answerPlan (.error e)).1 = .ok r := added ▸ accepted
    cases refused
  | ok m' =>
    obtain ⟨c, newcomer, stored, -⟩ := exists_of_addCourse added
    have courses : m'.courses = (m.after before).courses ++ [c] := congrArg Memory.courses stored
    have served : m.after (before ++ [⟨_, .addCourse code term⟩]) = m' := by
      rw [after_append]
      show ((m.after before).answerPlan _).2 = m'
      rw [added]
      rfl
    refine ⟨c, ?_⟩
    constructor
    case added => rw [served, courses]
    case ascending => exact newcomer.ids.of_cons
    case fresh =>
      intro earlier early old held new among
      have bounded := le_lastId_of_prefix orderly early held
      have beyond := newcomer.lt among
      omega
    case owned =>
      intro later
      have orderly_added := orderly.after (before ++ [⟨_, .addCourse code term⟩])
      rw [List.append_cons, after_append, served]
      exact (owned_of_newcomer orderly_before newcomer courses).after (served ▸ orderly_added) later

/-- What holds of all runs from a store: it stays in order, an id that a call brings is beyond every
id that was in the store at any time before, and so are all ids of a course that is added. -/
structure Orderly (m : Memory) : Prop where
  wellFormed : ∀ calls, WellFormed (m.after calls)
  fresh : ∀ before call, ∀ new ∈ (m.after (before ++ [call])).ids, new ∉ (m.after before).ids →
    ∀ earlier, earlier <+: before → ∀ old ∈ (m.after earlier).ids, old < new
  given : ∀ before code term r, ((m.after before).serve (.addCourse code term)).1 = .ok r →
    ∃ c, GivenOut m before ⟨_, .addCourse code term⟩ c

/-- Every run from a seed whose plan is tidy is orderly, whatever its catalog holds. -/
theorem orderly_ofSeed {seed : Seed} (tidy : Tidy seed.plan.courses) : Orderly (ofSeed seed) := by
  have orderly := wellFormed_ofSeed tidy
  constructor
  case wellFormed => exact orderly.after
  case fresh =>
    intro before call new among unheld earlier early old held
    have bounded := le_lastId_of_prefix orderly early held
    have change := (orderly.after before).change_of_call call.2
    rw [after_append] at among
    rcases change.mem_or_lt among with known | ⟨beyond, -⟩
    · exact absurd known unheld
    · omega
  case given => exact fun before code term r accepted => orderly.givenOut accepted

/-- A seed with ids below zero and a catalog whose ids are those of the plan. -/
def reused : Seed where
  plan :=
    { term := some "202620"
      courses :=
        [{ id := -9, code := "CS 1713", term := "202620"
           sections :=
             [{ id := -7, courseId := -9, code := "L1", selected := true },
              { id := -8, courseId := -9, code := "R1", selected := true }] }] }
  catalog :=
    [{ id := -9, code := "MAT 1214", term := ""
       sections :=
         [{ id := -7, courseId := 0, code := "L1", selected := true },
          { id := -7, courseId := 0, code := "L2", selected := true }] }]

/-- A course is added, and then all courses are removed. -/
def emptied : List AnyCall :=
  [⟨_, .addCourse "mat 1214" "202620"⟩, ⟨_, .autoBuild⟩, ⟨_, .reset none⟩]

theorem orderly_ofSeed_reused :
    Tidy reused.plan.courses ∧ ((ofSeed reused).after emptied).courses = [] ∧
      ∃ c, GivenOut (ofSeed reused) emptied ⟨_, .addCourse " MAT 1214 " "202620"⟩ c ∧
        idsOf c = [-3, -2, -1] := by
  have tidy : Tidy reused.plan.courses := ⟨by decide, by decide, by decide, by decide⟩
  have gone : ((ofSeed reused).after emptied).courses = [] := rfl
  have ids : ((ofSeed reused).after (emptied ++ [⟨_, .addCourse " MAT 1214 " "202620"⟩])).ids =
      [-3, -2, -1] := rfl
  obtain ⟨c, given⟩ := (orderly_ofSeed tidy).given emptied " MAT 1214 " "202620" _ rfl
  rw [Memory.ids, given.added, gone, List.nil_append, List.flatMap_singleton] at ids
  exact ⟨tidy, gone, c, given, ids⟩

end Memory

end Store

end Timetable
