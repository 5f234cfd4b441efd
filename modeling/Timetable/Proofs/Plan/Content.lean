import Mathlib.Data.List.Forall2
import Timetable.Proofs.Plan.Persistence

/-!
# What becomes of a record

A plan has one course for each id of its record. The course stands where the id first appears, and
is what the last course record with this id says (`Plan.content_ofRecord`). No section is lost: each
keeps its place and its texts, and its numbers are brought into range (`SectionRecord.Becomes`).
Reading a course goes through its sections with the kinds that have been seen; what it does to the
section at one position is said by `Course.selected_keepFirst`, and everything on the selection
follows from that.
-/

namespace Timetable

/-! ## Sections -/

/-- The section says what the record says, as a part of the course with this id. Whether it is
selected is left open. -/
structure SectionRecord.Becomes (courseId : Int) (r : SectionRecord) (s : Section) : Prop where
  id : s.id = r.id
  owner : s.courseId = courseId
  code : s.code = r.code
  kind : s.typeKey = typeKey r.code
  days : s.days = r.days
  times : s.times = r.times
  meeting : s.meeting = Meeting.read r.days r.times
  capacity : ∀ n : Nat, s.capacity = some n ↔ 0 < n ∧ r.capacity = some (n : Int)
  selectedCount : (s.selectedCount : Int) = max (r.selectedCount.getD 0) 0
  enrolled : (s.enrolled : Int) = max (r.enrolled.getD 0) 0
  faculty : s.faculty = r.faculty
  room : s.room = r.room

namespace Section

theorem bound_eq_some_iff {capacity : Option Int} {n : Nat} :
    bound capacity = some n ↔ 0 < n ∧ capacity = some (n : Int) := by
  unfold bound
  cases capacity with
  | none => simp
  | some value =>
    simp only [Option.some.injEq]
    split
    · rw [Option.some.injEq]
      omega
    · simp only [reduceCtorEq, false_iff]
      omega

theorem counter_eq (count : Option Int) : (counter count : Int) = max (count.getD 0) 0 := by
  cases count with
  | none => rfl
  | some value => exact Int.toNat_eq_max value

theorem becomes_ofRecord (courseId : Int) (r : SectionRecord) :
    r.Becomes courseId (ofRecord courseId r) where
  id := rfl
  owner := rfl
  code := rfl
  kind := rfl
  days := rfl
  times := rfl
  meeting := rfl
  capacity _ := bound_eq_some_iff
  selectedCount := counter_eq r.selectedCount
  enrolled := counter_eq r.enrolled
  faculty := rfl
  room := rfl

end Section

/-! ## Courses -/

/-- The course says what the record says. Its sections are those of the record, in their order. A
section is selected when it is in the record and no earlier selected one is of its kind, so of every
kind with a selected section in the record one is selected. -/
structure CourseRecord.Becomes (r : CourseRecord) (c : Course) : Prop where
  id : c.id = r.id
  code : c.code = r.code
  term : c.term = r.term
  title : c.title = r.title
  sections : List.Forall₂ (SectionRecord.Becomes r.id) r.sections c.sections
  selected : ∀ (i : Nat) (x : SectionRecord) (s : Section),
    r.sections[i]? = some x → c.sections[i]? = some s →
      (s.selected = true ↔ x.selected = true ∧
        ∀ y ∈ r.sections.take i, y.selected = true → typeKey y.code ≠ typeKey x.code)
  single : ∀ key, (c.selected.filter (·.typeKey = key)).length =
    if ∃ x ∈ r.sections, x.selected = true ∧ typeKey x.code = key then 1 else 0

namespace Course

/-- A section stays selected when no earlier selected one is of its kind, nor one seen before. -/
theorem selected_keepFirst {seen : List String} {sections : List Section} {i : Nat} {x s : Section}
    (before : sections[i]? = some x) (after : (keepFirst seen sections)[i]? = some s) :
    s.selected = true ↔ x.selected = true ∧ x.typeKey ∉ seen ∧
      ∀ y ∈ sections.take i, y.selected = true → y.typeKey ≠ x.typeKey := by
  induction sections generalizing seen i with
  | nil => cases before
  | cons first rest ih =>
    unfold keepFirst at after
    cases i with
    | zero =>
      obtain rfl : first = x := Option.some.inj before
      split at after
      · next on =>
        split at after
        · next known =>
          obtain rfl := Option.some.inj after
          simp [known]
        · next fresh =>
          obtain rfl := Option.some.inj after
          simp [on, fresh]
      · next off =>
        obtain rfl := Option.some.inj after
        simp [off]
    | succ i =>
      rw [List.getElem?_cons_succ] at before
      rw [List.take_succ_cons, List.forall_mem_cons]
      -- Only a section that stays selected adds its kind to those that have been seen.
      split at after
      · next on =>
        split at after
        · next known =>
          have apart : x.typeKey ∉ seen → first.typeKey ≠ x.typeKey :=
            fun fresh same => fresh (same ▸ known)
          rw [ih before after]
          tauto
        · next fresh =>
          rw [ih before after, List.mem_cons, not_or, eq_comm]
          tauto
      · next off =>
        rw [ih before after]
        tauto

/-- Deselecting a section keeps all that does not depend on whether it is selected. -/
theorem forall₂_keepFirst {α : Type} {R : α → Section → Prop}
    (blind : ∀ r s, R r s → R r { s with selected := false }) {records : List α}
    {sections : List Section} (related : List.Forall₂ R records sections) (seen : List String) :
    List.Forall₂ R records (keepFirst seen sections) := by
  induction related generalizing seen with
  | nil => exact .nil
  | cons first _ ih =>
    unfold keepFirst
    split
    · split
      · exact .cons (blind _ _ first) (ih _)
      · exact .cons first (ih _)
    · exact .cons first (ih _)

theorem becomes_ofRecord (r : CourseRecord) : r.Becomes (ofRecord r) := by
  refine ⟨rfl, rfl, rfl, rfl, ?sections, ?selected, ?single⟩
  case sections =>
    apply forall₂_keepFirst
    · rintro x s ⟨⟩
      constructor <;> assumption
    · rw [List.forall₂_map_right_iff, List.forall₂_same]
      exact fun x _ => Section.becomes_ofRecord r.id x
  case selected =>
    intro i x s before after
    have read : (r.sections.map (Section.ofRecord r.id))[i]? = some (Section.ofRecord r.id x) := by
      rw [List.getElem?_map, before]
      rfl
    rw [selected_keepFirst read after, ← List.map_take, List.forall_mem_map]
    simp only [List.not_mem_nil, not_false_eq_true, true_and]
    rfl
  case single =>
    intro key
    have kept := filter_keepFirst key (r.sections.map (Section.ofRecord r.id)) []
    rw [if_neg List.not_mem_nil] at kept
    rw [selected, ofRecord, kept, List.length_take, List.filter_map, List.filter_map,
      List.length_map]
    split
    · next chosen =>
      obtain ⟨x, member, on, kind⟩ := chosen
      refine Nat.min_eq_left (List.length_pos_of_mem (a := x) ?_)
      rw [List.mem_filter, List.mem_filter]
      exact ⟨⟨member, on⟩, decide_eq_true kind⟩
    · next none =>
      refine Nat.min_eq_zero_iff.mpr (Or.inr (List.length_eq_zero_iff.mpr ?_))
      rw [List.filter_eq_nil_iff]
      intro x among kind
      obtain ⟨member, on⟩ := List.mem_filter.mp among
      exact none ⟨x, member, on, of_decide_eq_true kind⟩

end Course

/-! ## Plans -/

/-- The plan has one course for each id of the record, in the order in which the ids first appear.
Each course is what the last course record with its id says. -/
structure PlanRecord.Becomes (r : PlanRecord) (p : Plan) : Prop where
  term : p.term = r.term
  order : p.courses.map (·.id) = (r.courses.map (·.id)).eraseDups
  content : ∀ c ∈ p.courses, ∃ before x after, r.courses = before ++ x :: after ∧
    (∀ y ∈ after, y.id ≠ c.id) ∧ x.Becomes c

namespace Plan

theorem map_id_putCourse (c : Course) (held : List Course) :
    (putCourse c held).map Course.id =
      if c.id ∈ held.map Course.id then held.map Course.id else held.map Course.id ++ [c.id] := by
  induction held with
  | nil => rfl
  | cons x rest ih =>
    unfold putCourse
    by_cases same : x.id = c.id
    · simp [same]
    · rw [if_neg same, List.map_cons, ih, List.map_cons]
      by_cases later : c.id ∈ rest.map Course.id
      · rw [if_pos later, if_pos (List.mem_cons_of_mem _ later)]
      · rw [if_neg later, if_neg (List.not_mem_cons_of_ne_of_not_mem (Ne.symm same) later),
          List.cons_append]

/-- Ids that are new are appended, each where it first appears. -/
theorem map_id_foldl_putCourse (added held : List Course) :
    (added.foldl (fun held c => putCourse c held) held).map Course.id =
      held.map Course.id ++
        ((added.map Course.id).filter (· ∉ held.map Course.id)).eraseDups := by
  induction added generalizing held with
  | nil => simp
  | cons c rest ih =>
    rw [List.foldl_cons, ih, map_id_putCourse, List.map_cons]
    by_cases known : c.id ∈ held.map Course.id
    · rw [if_pos known, List.filter_cons_of_neg (by simpa using known)]
    · have others : (rest.map Course.id).filter (· ∉ held.map Course.id ++ [c.id]) =
          ((rest.map Course.id).filter (· ∉ held.map Course.id)).filter fun id => !id == c.id := by
        rw [List.filter_filter]
        refine List.filter_congr fun id _ => ?_
        rw [Bool.eq_iff_iff]
        simp [List.mem_append, not_or, and_comm]
      rw [if_neg known, List.filter_cons_of_pos (by simpa using known), List.eraseDups_cons, others,
        List.append_assoc, List.singleton_append]

theorem mem_putCourse_self (c : Course) (held : List Course) : c ∈ putCourse c held := by
  induction held with
  | nil => exact List.mem_singleton_self c
  | cons x rest ih =>
    unfold putCourse
    split
    · exact List.mem_cons_self
    · exact List.mem_cons_of_mem x ih

/-- A course that is put into a list is the only one with its id. -/
theorem mem_putCourse {c x : Course} {held : List Course} (distinct : (held.map Course.id).Nodup)
    (member : x ∈ putCourse c held) : x = c ∨ x ∈ held ∧ x.id ≠ c.id := by
  have itself := mem_putCourse_self c held
  by_cases same : x.id = c.id
  · exact Or.inl (List.inj_on_of_nodup_map (nodup_map_putCourse c distinct) member itself same)
  · rcases exists_of_mem_putCourse member with rfl | earlier
    · exact absurd rfl same
    · exact Or.inr ⟨earlier, same⟩

/-- A course that is held in the end was added last of those with its id, or it was held before
and none with its id was added. -/
theorem mem_foldl_putCourse {added held : List Course} {c : Course}
    (distinct : (held.map Course.id).Nodup)
    (member : c ∈ added.foldl (fun held c => putCourse c held) held) :
    (∃ before after, added = before ++ c :: after ∧ ∀ y ∈ after, y.id ≠ c.id) ∨
      c ∈ held ∧ ∀ y ∈ added, y.id ≠ c.id := by
  induction added generalizing held with
  | nil => exact Or.inr ⟨member, by simp⟩
  | cons x rest ih =>
    rcases ih (nodup_map_putCourse x distinct) member with ⟨before, after, rfl, last⟩ | ⟨put, none⟩
    · exact Or.inl ⟨x :: before, after, rfl, last⟩
    · rcases mem_putCourse distinct put with rfl | ⟨earlier, other⟩
      · exact Or.inl ⟨[], rest, rfl, none⟩
      · exact Or.inr ⟨earlier, List.forall_mem_cons.mpr ⟨other.symm, none⟩⟩

/-- Reading a record brings it into order and loses nothing of it. -/
theorem content_ofRecord (r : PlanRecord) : r.Becomes (ofRecord r) := by
  refine ⟨rfl, ?order, ?content⟩
  case order =>
    have order := map_id_foldl_putCourse (r.courses.map Course.ofRecord) []
    simp only [List.map_nil, List.not_mem_nil, not_false_eq_true, decide_true, List.filter_true,
      List.nil_append, List.map_map] at order
    exact order
  case content =>
    intro c member
    have empty : (([] : List Course).map Course.id).Nodup := .nil
    rcases mem_foldl_putCourse empty member with ⟨before, after, whole, last⟩ | ⟨none, -⟩
    · obtain ⟨front, back, parts, -, behind⟩ := List.map_eq_append_iff.mp whole
      obtain ⟨x, later, rfl, rfl, rfl⟩ := List.map_eq_cons_iff.mp behind
      refine ⟨front, x, later, parts, ?_, Course.becomes_ofRecord x⟩
      exact fun y among => last _ (List.mem_map_of_mem among)
    · cases none

/-- A course with two selected lectures. In the code of the second one a blank stands before the
digit. -/
def collided : PlanRecord where
  courses :=
    [{ id := 1, code := "CS 1713", term := "202620"
       sections :=
         [{ id := 11, courseId := 1, code := "L1", selected := true },
          { id := 12, courseId := 1, code := "L 2", selected := true },
          { id := 13, courseId := 1, code := "001", selected := true }] }]

/-- The lectures are of one kind, so the second one does not stay selected. -/
theorem content_ofRecord_collided :
    (ofRecord collided).courses.map (·.id) = [1] ∧
      ∀ c ∈ (ofRecord collided).courses, (c.selected.filter (·.typeKey = "L")).length = 1 ∧
        ∀ s, c.sections[1]? = some s → s.selected = false := by
  have content := content_ofRecord collided
  refine ⟨content.order.trans (by decide), fun c member => ?_⟩
  obtain ⟨before, x, after, whole, -, becomes⟩ := content.content c member
  have among : x ∈ collided.courses := whole ▸ List.mem_append_right _ List.mem_cons_self
  obtain rfl := List.mem_singleton.mp among
  refine ⟨(becomes.single "L").trans (if_pos (by decide)), fun s second => ?_⟩
  rw [← Bool.not_eq_true, becomes.selected 1 _ s rfl second]
  decide

end Plan

end Timetable
