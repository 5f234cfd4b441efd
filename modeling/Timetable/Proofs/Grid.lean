import Mathlib.Data.List.Forall2
import Timetable.Proofs.Conflict.Detection
import Timetable.View

/-!
# The rows of the weekly grid

A row of the grid does not say which section it is of, so the rows are matched here with the places
of the plan: a place is a position of a course and a position in it, where a section stands that is
selected and has a meeting (`Plan.Place.In`). Listing the places in plan order (`Plan.places`) and
sorting them by start puts each of them behind those that start earlier, and of those that start
together behind the ones in front of it in the plan (`Plan.Place.Before`). Main statement:
`Plan.grid_exact`.
-/

namespace Timetable

/-- A section with its meeting, and where it stands: the position of its course in the plan, and its
own in the course. -/
structure Plan.Place where
  coursePosition : Nat
  position : Nat
  entry : SelectedSection
  meeting : Meeting

namespace Plan.Place

/-- In the plan the section stands there, is selected, and has this meeting. -/
structure In (p : Plan) (x : Place) : Prop where
  course : p.courses[x.coursePosition]? = some x.entry.course
  chosen : x.entry.course.sections[x.position]? = some x.entry.chosen
  selected : x.entry.chosen.selected = true
  meets : x.entry.chosen.meeting = some x.meeting

/-- The order of the plan: by course, and within a course by section. -/
def InFront (x y : Place) : Prop :=
  x.coursePosition < y.coursePosition ∨
    x.coursePosition = y.coursePosition ∧ x.position < y.position

/-- The order of the grid: by the minute in which the meeting starts, and in plan order where it is
the same. -/
def Before (x y : Place) : Prop :=
  x.meeting.start < y.meeting.start ∨ x.meeting.start = y.meeting.start ∧ x.InFront y

theorem Before.ne {x y : Place} (before : x.Before y) : x ≠ y := by
  intro same
  subst same
  rcases before with earlier | ⟨-, course | ⟨-, further⟩⟩
  · exact Nat.lt_irrefl _ earlier
  · exact Nat.lt_irrefl _ course
  · exact Nat.lt_irrefl _ further

end Plan.Place

/-- The row says what is known of the section at a place. -/
structure GridEntry.Shows (report : ConflictReport) (x : Plan.Place) (row : GridEntry) : Prop where
  courseCode : row.courseCode = x.entry.course.code
  sectionCode : row.sectionCode = x.entry.chosen.code
  days : row.days = x.meeting.days.pattern
  start : row.start = Clock.write x.meeting.start
  stop : row.stop = Clock.write x.meeting.stop
  clashing : row.clashing = true ↔ x.entry.chosen.id ∈ report.clashing

namespace Plan

/-- The place at a position of a course, if the section there is selected and has a meeting. -/
def placeAt? (c : Course) (i : Nat) (s : Section) (j : Nat) : Option Place :=
  if s.selected then s.meeting.map fun m => ⟨i, j, ⟨c, s⟩, m⟩ else none

/-- The places of the plan, in plan order. -/
def places (p : Plan) : List Place :=
  p.courses.zipIdx.flatMap fun (c, i) => c.sections.zipIdx.filterMap fun (s, j) => placeAt? c i s j

variable {p : Plan}

theorem placeAt?_eq_some_iff {c : Course} {i j : Nat} {s : Section} {x : Place} :
    placeAt? c i s j = some x ↔
      (x.coursePosition = i ∧ x.position = j ∧ x.entry = ⟨c, s⟩) ∧ s.selected = true ∧
        s.meeting = some x.meeting := by
  unfold placeAt?
  split
  · next on =>
    rw [Option.map_eq_some_iff]
    constructor
    · intro found
      obtain ⟨m, meets, rfl⟩ := found
      exact ⟨⟨rfl, rfl, rfl⟩, on, meets⟩
    · intro stands
      obtain ⟨i', j', e, m⟩ := x
      obtain ⟨⟨rfl, rfl, rfl⟩, -, meets⟩ := stands
      exact ⟨m, meets, rfl⟩
  · next off => simp [off]

theorem mem_places_iff {x : Place} : x ∈ p.places ↔ x.In p := by
  rw [places, List.mem_flatMap]
  constructor
  · intro listed
    obtain ⟨⟨c, i⟩, course, listed⟩ := listed
    obtain ⟨⟨s, j⟩, chosen, stands⟩ := List.mem_filterMap.mp listed
    obtain ⟨⟨rfl, rfl, same⟩, on, meets⟩ := placeAt?_eq_some_iff.mp stands
    rw [List.mem_zipIdx_iff_getElem?] at course chosen
    constructor <;> rw [same] <;> assumption
  · intro stands
    refine ⟨(x.entry.course, x.coursePosition), List.mem_zipIdx_iff_getElem?.mpr stands.course, ?_⟩
    rw [List.mem_filterMap]
    refine ⟨(x.entry.chosen, x.position), List.mem_zipIdx_iff_getElem?.mpr stands.chosen, ?_⟩
    exact placeAt?_eq_some_iff.mpr ⟨⟨rfl, rfl, rfl⟩, stands.selected, stands.meets⟩

theorem pairwise_places (p : Plan) : p.places.Pairwise Place.InFront := by
  rw [places, List.pairwise_flatMap]
  constructor
  · intro ⟨c, i⟩ _
    rw [List.pairwise_filterMap]
    refine (ordered_zipIdx c.sections).imp fun {a b} lt x here y there => Or.inr ?_
    obtain ⟨⟨course, first, -⟩, -⟩ := placeAt?_eq_some_iff.mp here
    obtain ⟨⟨course', second, -⟩, -⟩ := placeAt?_eq_some_iff.mp there
    exact ⟨course.trans course'.symm, by omega⟩
  · refine (ordered_zipIdx p.courses).imp fun {a b} lt x here y there => Or.inl ?_
    obtain ⟨_, _, here⟩ := List.mem_filterMap.mp here
    obtain ⟨_, _, there⟩ := List.mem_filterMap.mp there
    obtain ⟨⟨course, -⟩, -⟩ := placeAt?_eq_some_iff.mp here
    obtain ⟨⟨course', -⟩, -⟩ := placeAt?_eq_some_iff.mp there
    omega

/-- Without the positions, the places of a course are its selected sections that have a meeting. -/
theorem map_placesOf (c : Course) (i : Nat) :
    ((c.sections.zipIdx.filterMap fun (s, j) => placeAt? c i s j).map fun x => (x.entry, x.meeting)) =
      (c.selected.map fun s => (⟨c, s⟩ : SelectedSection)).filterMap fun e =>
        e.chosen.meeting.map (e, ·) := by
  have each (s : Section) (j : Nat) :
      (placeAt? c i s j).map (fun x => (x.entry, x.meeting)) =
        if s.selected then s.meeting.map fun m => ((⟨c, s⟩ : SelectedSection), m) else none := by
    unfold placeAt?
    split
    · rw [Option.map_map]
      rfl
    · rfl
  rw [Course.selected, List.filterMap_map, List.filterMap_filter, List.map_filterMap]
  conv => rhs; rw [← List.zipIdx_map_fst 0 c.sections, List.filterMap_map]
  exact List.filterMap_congr fun x _ => each x.1 x.2

theorem map_places (p : Plan) : (p.places.map fun x => (x.entry, x.meeting)) = p.placed := by
  rw [places, placed, selection, List.map_flatMap, List.filterMap_flatMap]
  conv => rhs; rw [← List.zipIdx_map_fst 0 p.courses, List.flatMap_map]
  exact List.flatMap_congr fun x _ => map_placesOf x.1 x.2

/-- The places of the plan, in the order of the grid. -/
def gridPlaces (p : Plan) : List Place :=
  p.places.mergeSort fun x y => x.meeting.start ≤ y.meeting.start

/-- Sorting by start leaves those that start together in plan order. -/
theorem pairwise_gridPlaces (p : Plan) : p.gridPlaces.Pairwise Place.Before := by
  have trans (x y z : Place) (xy : decide (x.meeting.start ≤ y.meeting.start) = true)
      (yz : decide (y.meeting.start ≤ z.meeting.start) = true) :
      decide (x.meeting.start ≤ z.meeting.start) = true := by
    rw [decide_eq_true_iff] at xy yz ⊢
    exact Nat.le_trans xy yz
  have total (x y : Place) : (decide (x.meeting.start ≤ y.meeting.start) ||
      decide (y.meeting.start ≤ x.meeting.start)) = true := by
    rw [Bool.or_eq_true, decide_eq_true_iff, decide_eq_true_iff]
    exact Nat.le_total _ _
  refine (pairwise_mergeSort_of_pairwise trans total (pairwise_places p)).imp ?_
  intro x y sorted
  rw [decide_eq_true_iff, decide_eq_true_iff] at sorted
  rcases Nat.lt_or_eq_of_le sorted.1 with earlier | together
  · exact Or.inl earlier
  · exact Or.inr ⟨together, sorted.2 (Nat.le_of_eq together.symm)⟩

theorem grid_eq (p : Plan) (report : ConflictReport) :
    p.grid report = p.gridPlaces.map fun x => GridEntry.of report x.entry x.meeting := by
  have sorted : (p.gridPlaces.map fun x => (x.entry, x.meeting)) =
      p.placed.mergeSort fun a b => a.2.start ≤ b.2.start := by
    rw [← map_places]
    exact List.map_mergeSort fun _ _ _ _ => rfl
  rw [grid, ← sorted, List.map_map]
  rfl

/-- The grid has one row for each place of the plan and no other, in the order of the grid, and each
row shows its own section. -/
theorem grid_exact (p : Plan) (report : ConflictReport) :
    ∃ places : List Place, (places.Nodup ∧ ∀ x, x ∈ places ↔ x.In p) ∧
      places.Pairwise Place.Before ∧
      List.Forall₂ (GridEntry.Shows report) places (p.grid report) := by
  have ordered := pairwise_gridPlaces p
  refine ⟨p.gridPlaces, ⟨ordered.imp Place.Before.ne, ?_⟩, ordered, ?_⟩
  · intro x
    rw [gridPlaces, List.mem_mergeSort, mem_places_iff]
  · rw [grid_eq, List.forall₂_map_right_iff, List.forall₂_same]
    intro x _
    exact ⟨rfl, rfl, rfl, rfl, rfl, ConflictReport.isClashing_iff⟩

end Plan

end Timetable
