import Mathlib.Data.List.Forall2
import Timetable.Placement
import Timetable.Proofs.Conflict
import Timetable.Proofs.ListOrder

/-!
# What the search for a place finds

The search works on two stacks and gives a section up again when nothing fits behind it. It then
leaves both stacks as they were (`Placement.search_restores`), so each section of a group is tried
beside the same meetings, and what is found can be told without the stacks
(`Placement.firstFit`, `Placement.search_eq`).

The search goes down the groups of a course and takes one section of each, always one that fits
beside everything taken so far. So what it finds has one section from each group
(`Placement.forall₂_of_firstFit`), and nothing in it overlaps (`Apart.firstFit`). For a course this
means one section of every kind (`Placement.placeCourse_eq_some`), and a course that is not placed
has some kind to fill (`Placement.typeKeys_ne_nil`).
-/

namespace Timetable

/-! ## The kinds of a course -/

theorem Course.nodup_typeKeys (c : Course) : c.typeKeys.Nodup := nodup_eraseDups _

theorem Course.mem_typeKeys {c : Course} {key : String} :
    key ∈ c.typeKeys ↔ ∃ s ∈ c.sections, s.typeKey = key := by
  rw [typeKeys, List.mem_eraseDups, List.mem_map]

theorem Course.mem_group {c : Course} {key : String} {s : Section} :
    s ∈ c.group key ↔ s ∈ c.sections ∧ s.typeKey = key := by
  rw [group, List.mem_filter, decide_eq_true_iff]

/-! ## The two stacks -/

namespace Placement

/-- The first choice of one section from each group, in the order of the groups, in which nothing
overlaps `taken` or anything chosen earlier. -/
def firstFit (taken : List Meeting) : List (List Section) → Option (List Section)
  | [] => some []
  | group :: rest =>
    group.findSome? fun s =>
      if fits taken s then (firstFit (take taken s) rest).map (s :: ·) else none

@[simp] theorem Stacks.pop_push (st : Stacks) (s : Section) : (st.push s).pop s = st := by
  cases meets : s.meeting with
  | none => simp [push, pop, take, meets]
  | some m => simp [push, pop, take, meets]

theorem Stacks.chosen_foldl_push (found : List Section) (st : Stacks) :
    (found.foldl push st).chosen = st.chosen ++ found := by
  induction found generalizing st with
  | nil => simp
  | cons s rest ih => rw [List.foldl_cons, ih, push, List.append_assoc, List.singleton_append]

/-- What is left of the stacks: all that was found is on them, or they are as before. -/
def outcome (st : Stacks) : Option (List Section) → Bool × Stacks
  | some found => (true, found.foldl .push st)
  | none => (false, st)

theorem tryEach_eq {deeper : Stacks → Bool × Stacks} {rest : List (List Section)}
    (behind : ∀ st, deeper st = outcome st (firstFit st.taken rest)) (group : List Section)
    (st : Stacks) :
    tryEach deeper group st = outcome st (firstFit st.taken (group :: rest)) := by
  induction group with
  | nil => rfl
  | cons s others ih =>
    rw [firstFit] at ih
    rw [tryEach, firstFit, List.findSome?_cons]
    by_cases fit : fits st.taken s = true
    · have next : (st.push s).taken = take st.taken s := rfl
      rw [if_pos fit, if_pos fit, behind, next]
      cases firstFit (take st.taken s) rest with
      | some found => rfl
      | none =>
        -- The section is popped, so the next one is tried on the stacks that it was pushed on.
        simp only [outcome, Stacks.pop_push, Option.map_none]
        exact ih
    · rw [if_neg fit, if_neg fit]
      exact ih

theorem search_eq (groups : List (List Section)) (st : Stacks) :
    search groups st = outcome st (firstFit st.taken groups) := by
  induction groups generalizing st with
  | nil => rfl
  | cons group rest ih => exact tryEach_eq ih group st

/-- A search that fails leaves both stacks as they were. -/
theorem search_restores {groups : List (List Section)} {st : Stacks}
    (failed : (search groups st).1 = false) : (search groups st).2 = st := by
  rw [search_eq] at failed ⊢
  cases found : firstFit st.taken groups with
  | none => rfl
  | some chosen =>
    rw [found] at failed
    cases failed

theorem placeCourse_eq_firstFit (c : Course) (taken : List Meeting) :
    placeCourse c taken = firstFit taken (c.typeGroups.map fun g => rank g.2) := by
  rw [placeCourse, search_eq]
  cases found : firstFit taken (c.typeGroups.map fun g => rank g.2) with
  | none => simp only [outcome]
  | some chosen => simp only [outcome, Stacks.chosen_foldl_push, List.nil_append]

end Placement

/-! ## One section after another -/

section Search

open Placement

variable {taken : List Meeting} {s : Section} {group chosen : List Section}
  {groups : List (List Section)}

theorem Placement.take_eq (taken : List Meeting) (s : Section) :
    take taken s = taken ++ s.meeting.toList := by
  unfold take
  cases s.meeting with
  | none => rw [Option.toList_none, List.append_nil]
  | some m => rfl

/-- A section that fits can be taken without an overlap. -/
theorem Apart.take (apart : Apart taken) (fit : fits taken s = true) :
    Apart (Placement.take taken s) := by
  rw [take_eq]
  cases meets : s.meeting with
  | none => simpa using apart
  | some m =>
    simp only [fits, meets, List.all_eq_true, Bool.not_eq_true'] at fit
    refine List.pairwise_append.mpr ⟨apart, List.pairwise_singleton _ _, fun t member n single => ?_⟩
    obtain rfl := List.mem_singleton.mp single
    exact fit t member

/-- What is found takes a section of the first group that fits, and goes on beside it. -/
theorem Placement.exists_of_firstFit_cons (found : firstFit taken (group :: groups) = some chosen) :
    ∃ s ∈ group, fits taken s = true ∧
      ∃ others, firstFit (take taken s) groups = some others ∧ s :: others = chosen := by
  rw [firstFit] at found
  obtain ⟨s, member, tried⟩ := List.exists_of_findSome?_eq_some found
  split at tried
  · next fit =>
    obtain ⟨others, went_on, rfl⟩ := Option.map_eq_some_iff.mp tried
    exact ⟨s, member, fit, others, went_on, rfl⟩
  · cases tried

theorem Placement.forall₂_of_firstFit (found : firstFit taken groups = some chosen) :
    List.Forall₂ (· ∈ ·) chosen groups := by
  induction groups generalizing taken chosen with
  | nil =>
    cases found
    exact .nil
  | cons group rest ih =>
    obtain ⟨s, member, -, others, went_on, rfl⟩ := exists_of_firstFit_cons found
    exact .cons member (ih went_on)

theorem Apart.firstFit (apart : Apart taken) (found : Placement.firstFit taken groups = some chosen) :
    Apart (taken ++ chosen.filterMap (·.meeting)) := by
  induction groups generalizing taken chosen with
  | nil =>
    cases found
    simpa using apart
  | cons group rest ih =>
    obtain ⟨s, -, fit, others, went_on, rfl⟩ := exists_of_firstFit_cons found
    have beside := ih (apart.take fit) went_on
    rw [take_eq, List.append_assoc] at beside
    cases meets : s.meeting with
    | none => simpa [meets] using beside
    | some m => simpa [meets] using beside

end Search

/-! ## One course -/

namespace Placement

variable {c : Course} {taken : List Meeting} {chosen : List Section}

theorem mem_rank {group : List Section} {s : Section} : s ∈ rank group ↔ s ∈ group :=
  List.mem_mergeSort

theorem placeCourse_eq (c : Course) (taken : List Meeting) :
    placeCourse c taken = firstFit taken (c.typeKeys.map fun key => rank (c.group key)) := by
  rw [placeCourse_eq_firstFit, Course.typeGroups, List.map_map]
  rfl

/-- One section from each group of a course is one section of each of its kinds. -/
theorem forall₂_groups_iff :
    List.Forall₂ (· ∈ ·) chosen (c.typeKeys.map fun key => rank (c.group key)) ↔
      chosen.map (·.typeKey) = c.typeKeys ∧ ∀ s ∈ chosen, s ∈ c.sections := by
  simp only [List.forall₂_map_right_iff, mem_rank, Course.mem_group]
  rw [List.forall₂_and_left, ← List.forall₂_eq_eq_eq, List.forall₂_map_left_iff]
  exact and_comm

/-- A course that is placed gets one section of each of its kinds. -/
theorem placeCourse_eq_some (found : placeCourse c taken = some chosen) :
    chosen.map (·.typeKey) = c.typeKeys ∧ ∀ s ∈ chosen, s ∈ c.sections := by
  rw [placeCourse_eq] at found
  exact forall₂_groups_iff.mp (forall₂_of_firstFit found)

/-- A course without sections is placed whatever is taken. -/
theorem typeKeys_ne_nil (unplaced : placeCourse c taken = none) : c.typeKeys ≠ [] := by
  intro empty
  rw [placeCourse_eq, empty] at unplaced
  cases unplaced

end Placement

end Timetable
