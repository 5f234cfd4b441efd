import Mathlib.Data.List.Nodup
import Mathlib.Data.List.Perm.Basic
import Timetable.Proofs.Placement.Search
import Timetable.Proofs.Plan.Selection

/-!
# What building a plan chooses

Building goes through the courses in plan order and chooses for each beside what is chosen already;
`Placement.choices` is the list of what it comes to. In a plan in which no section id repeats, an id
that is chosen belongs to one course, so the choice can be read off the ids: a course has one chosen
section of every kind (`Filled`), or it has kinds and no chosen section (`filled_or_empty`). The
schedule is then told by the plan and its chosen ids alone (`build_eq`), and nothing that is chosen
overlaps (`apart_chosenIn`).
-/

namespace Timetable

/-- The meetings of what is selected in the courses. -/
def heldMeetings (courses : List Course) : List Meeting :=
  (courses.flatMap (·.selected)).filterMap (·.meeting)

theorem Plan.map_meetings (p : Plan) : p.meetings.map Prod.snd = heldMeetings p.courses := by
  rw [meetings, selection, heldMeetings, List.map_filterMap, List.filterMap_flatMap,
    List.filterMap_flatMap]
  refine List.flatMap_congr fun c _ => ?_
  rw [List.filterMap_map]
  refine congrArg (List.filterMap · c.selected) (funext fun s => ?_)
  cases meets : s.meeting <;> simp [meets]

namespace Placement

/-- What is chosen for each course in turn; none when the course cannot be placed. -/
def choices (taken : List Meeting) : List Course → List (Course × Option (List Section))
  | [] => []
  | c :: rest =>
    let found := placeCourse c taken
    (c, found) :: choices (taken ++ (found.getD []).filterMap (·.meeting)) rest

def chosenFor (choice : Course × Option (List Section)) : List Section := choice.2.getD []

@[simp] theorem chosenFor_none (c : Course) : chosenFor (c, none) = [] := rfl

@[simp] theorem chosenFor_some (c : Course) (chosen : List Section) :
    chosenFor (c, some chosen) = chosen := rfl

section Choices

variable {taken : List Meeting} {courses : List Course} {x : Course × Option (List Section)}

theorem map_fst_choices (taken : List Meeting) (courses : List Course) :
    (choices taken courses).map Prod.fst = courses := by
  induction courses generalizing taken with
  | nil => rfl
  | cons c rest ih => rw [choices, List.map_cons, ih]

theorem placeCourse_of_mem (member : x ∈ choices taken courses) :
    ∃ held, placeCourse x.1 held = x.2 := by
  induction courses generalizing taken with
  | nil => cases member
  | cons c rest ih =>
    rcases List.mem_cons.mp member with rfl | later
    · exact ⟨taken, rfl⟩
    · exact ih later

/-- A course that is placed gets one section of each of its kinds, and any other gets none. -/
theorem chosenFor_of_mem (member : x ∈ choices taken courses) :
    (∀ s ∈ chosenFor x, s ∈ x.1.sections) ∧
      ((chosenFor x).map (·.typeKey) = if x.2.isSome = true then x.1.typeKeys else []) := by
  obtain ⟨held, placed⟩ := placeCourse_of_mem member
  obtain ⟨c, found⟩ := x
  cases found with
  | none => simp
  | some chosen =>
    obtain ⟨kinds, within⟩ := placeCourse_eq_some placed
    exact ⟨within, by simpa using kinds⟩

theorem apart_choices (apart : Apart taken) (courses : List Course) :
    Apart (taken ++ ((choices taken courses).flatMap chosenFor).filterMap (·.meeting)) := by
  induction courses generalizing taken with
  | nil => simpa [choices] using apart
  | cons c rest ih =>
    rw [choices, List.flatMap_cons, List.filterMap_append, ← List.append_assoc]
    refine ih ?_
    cases found : placeCourse c taken with
    | none => simpa using apart
    | some chosen => exact apart.firstFit ((placeCourse_eq c taken).symm.trans found)

/-- Going through the courses adds to a schedule what is chosen for each. -/
theorem foldl_placeNext (courses : List Course) (schedule : Schedule) (taken : List Meeting) :
    courses.foldl placeNext (schedule, taken) =
      ({ selected :=
          (((choices taken courses).flatMap chosenFor).map (·.id)).foldl .insert schedule.selected
         placed :=
          schedule.placed ++ ((choices taken courses).filter (·.2.isSome)).map (·.1.code)
         unplaced :=
          schedule.unplaced ++ ((choices taken courses).filter (!·.2.isSome)).map (·.1.code) },
        taken ++ ((choices taken courses).flatMap chosenFor).filterMap (·.meeting)) := by
  induction courses generalizing schedule taken with
  | nil => simp [choices]
  | cons c rest ih =>
    rw [List.foldl_cons, placeNext, choices]
    cases found : placeCourse c taken with
    | none => simp [ih]
    | some chosen => simp [ih]

end Choices

/-! ## The ids that are chosen in a plan -/

def chosenIds (p : Plan) : List Int := ((choices [] p.courses).flatMap chosenFor).map (·.id)

/-- The sections of a course that are chosen, in section order. -/
def chosenIn (p : Plan) (c : Course) : List Section := c.sections.filter (·.id ∈ chosenIds p)

/-- One section of every kind of the course is chosen, and no other. -/
def Filled (p : Plan) (c : Course) : Prop := ((chosenIn p c).map (·.typeKey)).Perm c.typeKeys

instance (p : Plan) (c : Course) : Decidable (Filled p c) := inferInstanceAs (Decidable (List.Perm _ _))

variable {p : Plan} {x : Course × Option (List Section)}

theorem nodup_chosenFor (member : x ∈ choices [] p.courses) : (chosenFor x).Nodup := by
  refine List.Nodup.of_map (·.typeKey) ?_
  rw [(chosenFor_of_mem member).2]
  split
  · exact x.1.nodup_typeKeys
  · exact .nil

theorem mem_courses_of_mem (member : x ∈ choices [] p.courses) : x.1 ∈ p.courses := by
  rw [← map_fst_choices [] p.courses]
  exact List.mem_map_of_mem member

section Distinct

variable (distinct : p.sectionIds.Nodup)
include distinct

theorem mem_chosenIds_iff (member : x ∈ choices [] p.courses) {s : Section}
    (among : s ∈ x.1.sections) : s.id ∈ chosenIds p ↔ s ∈ chosenFor x := by
  have once : ((choices [] p.courses).map Prod.fst).Nodup := by
    rw [map_fst_choices]
    exact .of_map _ p.distinct
  rw [chosenIds, List.mem_map]
  constructor
  · rintro ⟨s', chosen, same⟩
    obtain ⟨y, member', among'⟩ := List.mem_flatMap.mp chosen
    have within := (chosenFor_of_mem member').1 s' among'
    obtain ⟨here, rfl⟩ := Plan.section_eq_of_id distinct (mem_courses_of_mem member') within
      (mem_courses_of_mem member) among same
    rwa [← List.inj_on_of_nodup_map once member' member here]
  · exact fun chosen => ⟨s, List.mem_flatMap.mpr ⟨x, member, chosen⟩, rfl⟩

theorem chosenIn_perm (member : x ∈ choices [] p.courses) :
    (chosenIn p x.1).Perm (chosenFor x) := by
  have nodup := Plan.nodup_sections_of_mem distinct (mem_courses_of_mem member)
  refine (List.perm_ext_iff_of_nodup (nodup.filter _) (nodup_chosenFor member)).mpr fun s => ?_
  rw [List.mem_filter, decide_eq_true_iff]
  constructor
  · rintro ⟨among, chosen⟩
    exact (mem_chosenIds_iff distinct member among).mp chosen
  · intro chosen
    have among := (chosenFor_of_mem member).1 s chosen
    exact ⟨among, (mem_chosenIds_iff distinct member among).mpr chosen⟩

theorem kinds_chosenIn (member : x ∈ choices [] p.courses) :
    ((chosenIn p x.1).map (·.typeKey)).Perm (if x.2.isSome = true then x.1.typeKeys else []) := by
  rw [← (chosenFor_of_mem member).2]
  exact (chosenIn_perm distinct member).map _

theorem filled_iff (member : x ∈ choices [] p.courses) : Filled p x.1 ↔ x.2.isSome = true := by
  have kinds := kinds_chosenIn distinct member
  rw [Filled]
  cases placed : x.2.isSome with
  | true => simpa [placed] using kinds
  | false =>
    obtain ⟨held, found⟩ := placeCourse_of_mem member
    have none_found : x.2 = none := by simpa using placed
    have some_kind := typeKeys_ne_nil (found.trans none_found)
    rw [placed] at kinds
    simp only [Bool.false_eq_true, if_false, iff_false] at kinds ⊢
    intro filled
    exact some_kind (List.perm_nil.mp (filled.symm.trans kinds))

/-- A course that is not filled has a kind to fill, and none of its sections is chosen. -/
theorem filled_or_empty {c : Course} (course : c ∈ p.courses) :
    Filled p c ∨ c.typeKeys ≠ [] ∧ chosenIn p c = [] := by
  rw [← map_fst_choices [] p.courses] at course
  obtain ⟨x, member, rfl⟩ := List.mem_map.mp course
  by_cases filled : Filled p x.1
  · exact .inl filled
  · have unplaced : ¬x.2.isSome = true := fun placed => filled ((filled_iff distinct member).mpr placed)
    have kinds := kinds_chosenIn distinct member
    rw [if_neg unplaced, List.perm_nil, List.map_eq_nil_iff] at kinds
    refine .inr ⟨fun empty => filled ?_, kinds⟩
    rw [Filled, kinds, empty]
    exact .nil

theorem nodup_kinds_chosenIn {c : Course} (course : c ∈ p.courses) :
    ((chosenIn p c).map (·.typeKey)).Nodup := by
  rcases filled_or_empty distinct course with filled | ⟨-, empty⟩
  · exact filled.nodup_iff.mpr c.nodup_typeKeys
  · rw [empty]
    exact .nil

theorem flatMap_chosenIn_perm {outcomes : List (Course × Option (List Section))}
    (part : outcomes ⊆ choices [] p.courses) :
    ((outcomes.map Prod.fst).flatMap (chosenIn p)).Perm (outcomes.flatMap chosenFor) := by
  rw [List.flatMap_map]
  exact .flatMap_left _ fun x member => chosenIn_perm distinct (part member)

theorem apart_chosenIn : Apart ((p.courses.flatMap (chosenIn p)).filterMap (·.meeting)) := by
  have apart := apart_choices (.nil : Apart []) p.courses
  have perm := flatMap_chosenIn_perm distinct (List.Subset.refl (choices [] p.courses))
  rw [map_fst_choices] at perm
  exact apart.perm (perm.symm.filterMap _)

/-- The schedule of a plan, read off the ids that are chosen. -/
theorem build_eq :
    build p =
      { selected := .ofList (chosenIds p)
        placed := (p.courses.filter fun c => Filled p c).map (·.code)
        unplaced := (p.courses.filter fun c => ¬Filled p c).map (·.code) } := by
  have read : ∀ (kept : Option (List Section) → Bool) (keep : Course → Bool),
      (∀ x ∈ choices [] p.courses, kept x.2 = keep x.1) →
      ((choices [] p.courses).filter fun x => kept x.2).map (·.1.code) =
        (p.courses.filter keep).map (·.code) := by
    intro kept keep same
    conv => rhs; rw [← map_fst_choices [] p.courses, List.filter_map, List.map_map]
    rw [List.filter_congr same]
    rfl
  have placed := read (·.isSome) (fun c => Filled p c) fun x member => by
    simp [filled_iff distinct member]
  have unplaced := read (!·.isSome) (fun c => ¬Filled p c) fun x member => by
    simp only [filled_iff distinct member, decide_not, Bool.decide_eq_true]
  rw [build, foldl_placeNext, placed, unplaced]
  rfl

end Distinct

end Placement

end Timetable
