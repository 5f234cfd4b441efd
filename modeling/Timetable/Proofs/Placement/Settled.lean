import Mathlib.Data.List.Induction
import Timetable.Proofs.Placement.Order

/-!
# Plans that keep their selection

When a plan in which something is selected is built, a course may get other sections than it has. It
keeps those that it has as long as none of its choices that fit beside the courses in front of it
comes sooner (`Plan.Settled`). In a plan that stands as a build has left it (`Standing`), this is so
for every course exactly when building chooses what is selected (`Standing.kept_iff`).
-/

namespace Timetable

open Placement

/-- No course of which a section of each kind is selected has a choice that comes sooner and fits
beside what is selected in the courses in front of it. -/
def Plan.Settled (p : Plan) : Prop :=
  ∀ before c after, p.courses = before ++ c :: after →
    ∀ chosen, Choice c chosen → (∀ s ∈ chosen, s.selected = true) →
      ∀ other, Choice c other → Beside (heldMeetings before) other →
        ¬List.Lex (Sooner c) other chosen

namespace Placement

variable {p : Plan} {c : Course} {chosen other : List Section}

/-! ## What is selected, as a choice -/

section Selected

variable (choice : Choice c chosen) (on : ∀ s ∈ chosen, s.selected = true)
include choice on

theorem Choice.mem_selected {s : Section} (picked : s ∈ chosen) : s ∈ c.selected :=
  List.mem_filter.mpr ⟨choice.within s picked, on s picked⟩

/-- Only one choice is selected: its sections can be found by their kinds. -/
theorem Choice.eq_filterMap : chosen = c.typeKeys.filterMap c.selectedOfKind := by
  have found : ∀ s ∈ chosen, (c.selectedOfKind ∘ (·.typeKey)) s = some s := fun s picked =>
    find?_of_nodup c.nodup_kinds_selected (choice.mem_selected on picked)
  rw [← choice.kinds, List.filterMap_map, List.filterMap_congr found, List.filterMap_some]

theorem Choice.perm_selected : chosen.Perm c.selected := by
  have nodup : chosen.Nodup := .of_map (·.typeKey) (choice.kinds ▸ c.nodup_typeKeys)
  refine (List.perm_ext_iff_of_nodup nodup (.of_map _ c.nodup_kinds_selected)).mpr fun s => ?_
  constructor
  · exact choice.mem_selected on
  · intro selected
    have kind : s.typeKey ∈ chosen.map (·.typeKey) := by
      rw [choice.kinds, Course.mem_typeKeys]
      exact ⟨s, (List.mem_filter.mp selected).1, rfl⟩
    obtain ⟨t, picked, same⟩ := List.mem_map.mp kind
    rwa [← List.inj_on_of_nodup_map c.nodup_kinds_selected (choice.mem_selected on picked)
      selected same]

end Selected

theorem exists_choice_of_perm (perm : (c.selected.map (·.typeKey)).Perm c.typeKeys) :
    ∃ chosen, Choice c chosen ∧ ∀ s ∈ chosen, s.selected = true := by
  have paired : List.Forall₂ (fun key s => s.typeKey = key) (c.selected.map (·.typeKey))
      c.selected := by
    rw [List.forall₂_map_left_iff, List.forall₂_same]
    exact fun s _ => rfl
  obtain ⟨chosen, kinds, same⟩ := List.perm_comp_forall₂ perm.symm paired
  refine ⟨chosen, ⟨?_, fun s picked => ?_⟩, fun s picked => ?_⟩
  · rw [← List.forall₂_eq_eq_eq, List.forall₂_map_left_iff]
    exact kinds.flip
  · exact (List.mem_filter.mp (same.subset picked)).1
  · exact (List.mem_filter.mp (same.subset picked)).2

/-! ## Plans that were built -/

/-- Each course has one section of every kind selected, or none and no place, and what is selected
does not overlap. -/
structure Standing (p : Plan) : Prop where
  distinct : p.sectionIds.Nodup
  apart : Apart (heldMeetings p.courses)
  each : ∀ before c after, p.courses = before ++ c :: after →
    (∃ chosen, Choice c chosen ∧ ∀ s ∈ chosen, s.selected = true) ∨
      c.selected = [] ∧ placeCourse c (heldMeetings before) = none

section Standing

variable (standing : Standing p)
include standing

/-- Where the courses in front keep what they have, the course is placed beside it. -/
theorem Standing.perm_getD {before after : List Course} (split : p.courses = before ++ c :: after)
    (kept : ∀ d ∈ before, (chosenIn p d).Perm d.selected) :
    (chosenIn p c).Perm ((placeCourse c (heldMeetings before)).getD []) := by
  have held : ((before.flatMap (chosenIn p)).filterMap (·.meeting)).Perm (heldMeetings before) :=
    .filterMap _ (.flatMap_left _ kept)
  rw [← placeCourse_perm held]
  exact chosenIn_perm_getD standing.distinct split

theorem Standing.settled (kept : ∀ d ∈ p.courses, (chosenIn p d).Perm d.selected) : p.Settled := by
  intro before c after split chosen choice on
  have course : c ∈ p.courses := by simp [split]
  have front : ∀ d ∈ before, (chosenIn p d).Perm d.selected := by
    intro d member
    exact kept d (by simp [split, member])
  have placed := (kept c course).symm.trans (standing.perm_getD split front)
  cases found : placeCourse c (heldMeetings before) with
  | none =>
    -- Then nothing is selected, and the course has no kind to fill.
    rw [found] at placed
    have empty : chosen = [] := ((choice.perm_selected on).trans placed).eq_nil
    have kinds := choice.kinds
    rw [empty] at kinds
    exact absurd kinds.symm (typeKeys_ne_nil found)
  | some chosen' =>
    rw [found] at placed
    obtain ⟨choice', beside, least⟩ :=
      (placeCourse_eq_some_iff (Plan.nodup_sections_of_mem standing.distinct course)).mp found
    have on' : ∀ s ∈ chosen', s.selected = true := by
      intro s picked
      exact (List.mem_filter.mp (placed.symm.subset picked)).2
    rw [choice.eq_filterMap on, ← choice'.eq_filterMap on']
    exact least

theorem Standing.beside {before after : List Course} (split : p.courses = before ++ c :: after)
    (choice : Choice c chosen) (on : ∀ s ∈ chosen, s.selected = true) :
    Beside (heldMeetings before) chosen := by
  have apart := standing.apart
  rw [split, heldMeetings, List.flatMap_append, List.filterMap_append, List.flatMap_cons,
    List.filterMap_append] at apart
  obtain ⟨-, behind, across⟩ := List.pairwise_append.mp apart
  have own := (List.pairwise_append.mp behind).1
  have same : (chosen.filterMap (·.meeting)).Perm (c.selected.filterMap (·.meeting)) :=
    (choice.perm_selected on).filterMap _
  refine ⟨Apart.perm own same.symm, fun t held m picked => ?_⟩
  exact across t held m (List.mem_append_left _ (same.subset picked))

theorem Standing.kept (settled : p.Settled) {before after : List Course}
    (split : p.courses = before ++ after) : ∀ d ∈ before, (chosenIn p d).Perm d.selected := by
  -- The last course is placed beside those in front of it, which keep what they have.
  induction before using List.reverseRecOn generalizing after with
  | nil => exact fun d member => absurd member List.not_mem_nil
  | append_singleton before c ih =>
    rw [List.append_assoc, List.singleton_append] at split
    have front := ih split
    have placed := standing.perm_getD split front
    have here : (chosenIn p c).Perm c.selected := by
      rcases standing.each before c after split with ⟨chosen, choice, on⟩ | ⟨empty, unplaced⟩
      · have nodup : c.sections.Nodup :=
          Plan.nodup_sections_of_mem standing.distinct (by simp [split])
        have beside := standing.beside split choice on
        have least := settled before c after split chosen choice on
        rw [(placeCourse_eq_some_iff nodup).mpr ⟨choice, beside, least⟩] at placed
        exact placed.trans (choice.perm_selected on)
      · rw [unplaced] at placed
        rw [empty]
        exact placed
    intro d member
    rcases List.mem_append.mp member with earlier | last
    · exact front d earlier
    · rw [List.mem_singleton.mp last]
      exact here

theorem Standing.kept_iff :
    (∀ c ∈ p.courses, (chosenIn p c).Perm c.selected) ↔ p.Settled := by
  constructor
  · exact standing.settled
  · exact fun settled => standing.kept settled (List.append_nil _).symm

end Standing

end Placement

end Timetable
