import Mathlib.Data.List.Nodup
import Timetable.Plan

/-!
# What a plan keeps of its record

Reading a course leaves ids and kinds of its sections alone (`Course.outline_ofRecord`) and keeps
the first selected section of every kind (`Course.chosen_ofRecord`); with one of a kind at most there
is nothing to repair (`Course.keepFirst_eq_self`). A record in which no course id
repeats is read course by course (`Plan.course?_ofRecord`).
-/

namespace Timetable

/-! ## Lists without repeated keys -/

section Keys

variable {α β : Type} [DecidableEq β] {f : α → β} {l : List α} {x : α}

theorem find?_of_nodup (distinct : (l.map f).Nodup) (member : x ∈ l) :
    l.find? (fun y => f y = f x) = some x := by
  cases found : l.find? fun y => f y = f x with
  | none => simpa using List.find?_eq_none.mp found x member
  | some y =>
    have same : f y = f x := by simpa using List.find?_some found
    rw [List.inj_on_of_nodup_map distinct (List.mem_of_find?_eq_some found) member same]

theorem filter_of_nodup (distinct : (l.map f).Nodup) (member : x ∈ l) :
    l.filter (fun y => f y = f x) = [x] := by
  induction l with
  | nil => cases member
  | cons y rest ih =>
    obtain ⟨apart, distinct⟩ := List.nodup_cons.mp distinct
    have others : ∀ z ∈ rest, f z ≠ f y := fun z among same =>
      apart (same ▸ List.mem_map_of_mem among)
    rcases List.mem_cons.mp member with rfl | among
    · rw [List.filter_cons_of_pos (by simp), List.filter_eq_nil_iff.mpr (by simpa using others)]
    · rw [List.filter_cons_of_neg (by simpa using (others x among).symm), ih distinct among]

end Keys

/-! ## Courses -/

/-- The ids of the sections with their kinds, in section order. -/
def CourseRecord.outline (r : CourseRecord) : List (Int × String) :=
  r.sections.map fun s => (s.id, typeKey s.code)

/-- The ids of the selected sections of one kind, in section order. -/
def CourseRecord.chosen (r : CourseRecord) (key : String) : List Int :=
  ((r.sections.filter (·.selected)).filter (typeKey ·.code = key)).map (·.id)

namespace Course

/-- The ids of the sections with their kinds, in section order. -/
def outline (c : Course) : List (Int × String) := c.sections.map fun s => (s.id, s.typeKey)

/-- The ids of the selected sections of one kind, in section order. -/
def chosen (c : Course) (key : String) : List Int :=
  (c.selected.filter (·.typeKey = key)).map (·.id)

/-- Only the flags of the sections change. -/
theorem map_keepFirst {β : Type} (f : Section → β)
    (blind : ∀ s : Section, f { s with selected := false } = f s) (sections : List Section)
    (seen : List String) : (keepFirst seen sections).map f = sections.map f := by
  induction sections generalizing seen with
  | nil => rfl
  | cons s rest ih =>
    unfold keepFirst
    split
    · split
      · rw [List.map_cons, List.map_cons, blind, ih]
      · rw [List.map_cons, List.map_cons, ih]
    · rw [List.map_cons, List.map_cons, ih]

/-- Of the selected sections of a kind the first stays selected, unless the kind was seen before. -/
theorem filter_keepFirst (key : String) (sections : List Section) (seen : List String) :
    ((keepFirst seen sections).filter (·.selected)).filter (·.typeKey = key) =
      if key ∈ seen then [] else
        ((sections.filter (·.selected)).filter (·.typeKey = key)).take 1 := by
  induction sections generalizing seen with
  | nil => simp [keepFirst]
  | cons s rest ih =>
    unfold keepFirst
    by_cases on : s.selected = true
    · by_cases known : s.typeKey ∈ seen
      · by_cases same : s.typeKey = key
        · simp [on, known, same ▸ known, ih]
        · simp [on, known, same, ih]
      · by_cases same : s.typeKey = key
        · simp [on, same, same ▸ known, ih]
        · simp [on, known, same, Ne.symm same, ih]
    · simp [on, ih]

/-- With one selected section of a kind at most there is nothing to repair. -/
theorem keepFirst_eq_self {sections : List Section} {seen : List String}
    (single : ((sections.filter (·.selected)).map (·.typeKey)).Nodup)
    (fresh : ∀ key ∈ (sections.filter (·.selected)).map (·.typeKey), key ∉ seen) :
    keepFirst seen sections = sections := by
  induction sections generalizing seen with
  | nil => rfl
  | cons s rest ih =>
    unfold keepFirst
    by_cases on : s.selected = true
    · rw [List.filter_cons_of_pos on, List.map_cons] at single fresh
      obtain ⟨apart, single⟩ := List.nodup_cons.mp single
      rw [if_pos on, if_neg (fresh _ List.mem_cons_self), ih single]
      intro key among seen_before
      rcases List.mem_cons.mp seen_before with rfl | earlier
      · exact apart among
      · exact fresh key (List.mem_cons_of_mem _ among) earlier
    · rw [List.filter_cons_of_neg on] at single fresh
      rw [if_neg on, ih single fresh]

/-- The sections with certain ids, up to their flags. -/
theorem map_filter_ofRecord {β : Type} (f : Section → β)
    (blind : ∀ s : Section, f { s with selected := false } = f s) (keep : Int → Bool)
    (r : CourseRecord) :
    ((ofRecord r).sections.filter (keep ·.id)).map f =
      (r.sections.filter (keep ·.id)).map (f ∘ Section.ofRecord r.id) := by
  have labelled := congrArg (fun l => (l.filter (keep ·.1)).map Prod.snd)
    (map_keepFirst (fun s => (s.id, f s)) (fun s => by rw [blind])
      (r.sections.map (Section.ofRecord r.id)) [])
  simpa only [ofRecord, List.filter_map, List.map_map, Function.comp_def, Section.ofRecord]
    using labelled

theorem outline_ofRecord (r : CourseRecord) : (ofRecord r).outline = r.outline := by
  rw [outline, ofRecord, map_keepFirst _ fun _ => rfl, List.map_map]
  rfl

/-- Of the selected sections of a kind a course keeps the first. -/
theorem chosen_ofRecord (r : CourseRecord) (key : String) :
    (ofRecord r).chosen key = (r.chosen key).take 1 := by
  have kept := filter_keepFirst key (r.sections.map (Section.ofRecord r.id)) []
  rw [if_neg List.not_mem_nil] at kept
  rw [chosen, selected, ofRecord, kept, CourseRecord.chosen, List.map_take, List.filter_map,
    List.filter_map, List.map_map]
  rfl

end Course

/-! ## Plans -/

namespace Plan

/-- The selected sections of a type group, if the plan has the course. -/
def chosen? (p : Plan) (id : Int) (key : String) : Option (List Int) :=
  (p.course? id).map (·.chosen key)

theorem putCourse_of_not_mem {c : Course} {courses : List Course}
    (fresh : c.id ∉ courses.map Course.id) : putCourse c courses = courses ++ [c] := by
  induction courses with
  | nil => rfl
  | cons x rest ih =>
    rw [List.map_cons, List.mem_cons, not_or] at fresh
    rw [putCourse, if_neg (Ne.symm fresh.1), ih fresh.2, List.cons_append]

theorem foldl_putCourse (courses : List Course) {added : List Course}
    (distinct : ((courses ++ added).map Course.id).Nodup) :
    added.foldl (fun held c => putCourse c held) courses = courses ++ added := by
  induction added generalizing courses with
  | nil => rw [List.foldl_nil, List.append_nil]
  | cons c rest ih =>
    have fresh : c.id ∉ courses.map Course.id := by
      rw [List.map_append, List.nodup_append] at distinct
      exact fun among => distinct.2.2 _ among _ (List.mem_cons_self) rfl
    rw [List.foldl_cons, putCourse_of_not_mem fresh, ih, List.append_assoc, List.singleton_append]
    rwa [List.append_assoc, List.singleton_append]

variable {r : PlanRecord} (distinct : (r.courses.map (·.id)).Nodup)
include distinct

theorem courses_ofRecord : (ofRecord r).courses = r.courses.map Course.ofRecord := by
  refine foldl_putCourse [] ?_
  rw [List.nil_append, List.map_map]
  exact distinct

theorem course?_ofRecord (id : Int) :
    (ofRecord r).course? id = (r.courses.find? (·.id = id)).map Course.ofRecord := by
  rw [course?, courses_ofRecord distinct, List.find?_map]
  rfl

end Plan

end Timetable
