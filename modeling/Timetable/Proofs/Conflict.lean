import Mathlib.Data.List.Pairwise
import Timetable.Conflict

/-!
# What is written into a report

The search for clashes goes through the meetings of each day and writes what it finds into one
report. What it comes to is the report of a list (`ConflictReport.ofList`): the clashes of one day
after the other (`Conflict.onDay`), with the ids that are named in them (`Conflict.detect_eq`).

Clashes are looked for day by day, and places are given by comparing meetings as a whole. Both say
the same: nothing is reported exactly when no two meetings of the list overlap
(`Conflict.clashes_eq_nil_iff`). Overlapping is symmetric, so the order of the list does not matter
(`Apart.perm`).
-/

namespace Timetable

namespace Meeting

theorem overlaps_comm (m n : Meeting) : m.overlaps n = n.overlaps m := by
  have meets : m.days.meets n.days = n.days.meets m.days := by
    rw [Bool.eq_iff_iff, DaySet.meets_iff, DaySet.meets_iff]
    simp only [and_comm]
  rw [overlaps, overlaps, meets, sharesTime, sharesTime, Bool.and_comm (decide (m.start < n.stop))]

/-- Two meetings overlap when on some day both take place and share time. -/
theorem overlaps_eq_false_iff {m n : Meeting} :
    m.overlaps n = false ↔
      ∀ d, m.days.has d = true → n.days.has d = true → m.sharesTime n = false := by
  rw [overlaps, ← Bool.not_eq_true, Bool.and_eq_true, DaySet.meets_iff]
  constructor
  · intro apart d here there
    cases shares : m.sharesTime n with
    | false => rfl
    | true => exact absurd ⟨⟨d, here, there⟩, shares⟩ apart
  · rintro apart ⟨⟨d, here, there⟩, shares⟩
    rw [apart d here there] at shares
    cases shares

end Meeting

/-- No two meetings of the list overlap. -/
def Apart (meetings : List Meeting) : Prop := meetings.Pairwise fun m n => m.overlaps n = false

theorem Apart.perm {meetings meetings' : List Meeting} (apart : Apart meetings)
    (same : meetings.Perm meetings') : Apart meetings' :=
  (same.pairwise_iff fun h => (Meeting.overlaps_comm _ _).trans h).mp apart

namespace ConflictReport

variable {r : ConflictReport} {found : List Clash}

theorem clashes_foldl_add (found : List Clash) (r : ConflictReport) :
    (found.foldl add r).clashes = r.clashes ++ found := by
  induction found generalizing r with
  | nil => simp
  | cons clash rest ih => rw [List.foldl_cons, ih, add, List.append_assoc, List.singleton_append]

/-- Adding clashes adds the ids that they name. -/
theorem mem_clashing_foldl_add {id : Int} :
    id ∈ (found.foldl add r).clashing ↔
      id ∈ r.clashing ∨ ∃ clash ∈ found, id = clash.first ∨ id = clash.second := by
  induction found generalizing r with
  | nil => simp
  | cons clash rest ih =>
    rw [List.foldl_cons, ih, add, IdSet.mem_insert, IdSet.mem_insert]
    simp only [List.mem_cons, exists_eq_or_imp]
    grind

/-- The report of a list of clashes. -/
def ofList (found : List Clash) : ConflictReport :=
  { found.foldl add none with hasConflict := !found.isEmpty }

@[simp] theorem clashes_ofList (found : List Clash) : (ofList found).clashes = found :=
  clashes_foldl_add found none

theorem mem_clashing_ofList {id : Int} :
    id ∈ (ofList found).clashing ↔ ∃ clash ∈ found, id = clash.first ∨ id = clash.second := by
  refine mem_clashing_foldl_add.trans (or_iff_right ?_)
  exact List.not_mem_nil

theorem hasConflict_ofList :
    (ofList found).hasConflict = true ↔ ∃ clash, clash ∈ found := by
  rw [ofList, Bool.not_eq_true', List.isEmpty_eq_false_iff_exists_mem]

end ConflictReport

namespace Conflict

/-- The pairs of elements at positions `i < j`, in lexicographic order of positions. -/
def pairs {α : Type} : List α → List (α × α)
  | [] => []
  | x :: rest => rest.map (x, ·) ++ pairs rest

/-- The clashes on a day among meetings that take place on it. -/
def among (day : Day) (meetings : List (Int × Meeting)) : List Clash :=
  ((pairs meetings).filter fun (a, b) => a.2.sharesTime b.2).map fun (a, b) => ⟨day, a.1, b.1⟩

/-- The clashes on one day. -/
def onDay (meetings : List (Int × Meeting)) (day : Day) : List Clash :=
  among day (meetings.filter (·.2.days.has day))

/-! ## The search -/

/-- Comparing a meeting with others reports those that share time with it. -/
theorem foldl_record (day : Day) (a : Int × Meeting) (others : List (Int × Meeting))
    (r : ConflictReport) :
    others.foldl (record day a) r =
      ((others.filter (a.2.sharesTime ·.2)).map fun b => (⟨day, a.1, b.1⟩ : Clash)).foldl .add r := by
  induction others generalizing r with
  | nil => rfl
  | cons b rest ih =>
    rw [List.foldl_cons, ih, record]
    cases shares : a.2.sharesTime b.2 with
    | true => simp [shares]
    | false => simp [shares]

theorem scan_eq (day : Day) (r : ConflictReport) (meetings : List (Int × Meeting)) :
    scan day r meetings = (among day meetings).foldl .add r := by
  induction meetings generalizing r with
  | nil => rfl
  | cons a rest ih =>
    rw [scan, ih, foldl_record, among, among, pairs, List.filter_append, List.map_append,
      List.foldl_append, List.filter_map, List.map_map]
    rfl

theorem foldl_scan (days : List Day) (meetings : List (Int × Meeting)) (r : ConflictReport) :
    days.foldl (fun r day => scan day r (meetings.filter (·.2.days.has day))) r =
      (days.flatMap (onDay meetings)).foldl .add r := by
  induction days generalizing r with
  | nil => rfl
  | cons day rest ih => rw [List.foldl_cons, ih, scan_eq, List.flatMap_cons, List.foldl_append]; rfl

/-- Fewer than two meetings have no pair. -/
theorem onDay_of_length_lt {meetings : List (Int × Meeting)} (few : meetings.length < 2) (day : Day) :
    onDay meetings day = [] := by
  have fewer := Nat.lt_of_le_of_lt (List.length_filter_le (·.2.days.has day) meetings) few
  rw [onDay, among]
  generalize meetings.filter (·.2.days.has day) = here at fewer ⊢
  match here, fewer with
  | [], _ => rfl
  | [_], _ => rfl

/-- The search reports the clashes of one day after the other. -/
theorem detect_eq (meetings : List (Int × Meeting)) :
    detect meetings = .ofList (Day.all.flatMap (onDay meetings)) := by
  unfold detect
  split
  · next few =>
    have nothing : Day.all.flatMap (onDay meetings) = [] :=
      List.flatMap_eq_nil_iff.mpr fun day _ => onDay_of_length_lt few day
    rw [nothing]
    rfl
  · simp only [foldl_scan, ConflictReport.ofList, ConflictReport.clashes_foldl_add]
    rfl

theorem clashes_detect (meetings : List (Int × Meeting)) :
    (detect meetings).clashes = Day.all.flatMap (onDay meetings) := by
  rw [detect_eq, ConflictReport.clashes_ofList]

theorem mem_clashing_detect {meetings : List (Int × Meeting)} {id : Int} :
    id ∈ (detect meetings).clashing ↔
      ∃ clash ∈ (detect meetings).clashes, id = clash.first ∨ id = clash.second := by
  rw [clashes_detect, detect_eq, ConflictReport.mem_clashing_ofList]

theorem hasConflict_detect {meetings : List (Int × Meeting)} :
    (detect meetings).hasConflict = true ↔ ∃ clash, clash ∈ (detect meetings).clashes := by
  rw [clashes_detect, detect_eq, ConflictReport.hasConflict_ofList]

/-! ## Meetings without a clash -/

theorem forall_mem_pairs {α : Type} {R : α → α → Prop} {l : List α} :
    (∀ x ∈ pairs l, R x.1 x.2) ↔ l.Pairwise R := by
  induction l with
  | nil => simp [pairs]
  | cons a rest ih =>
    simp only [pairs, List.mem_append, List.mem_map, or_imp, forall_and, ih, List.pairwise_cons]
    refine and_congr_left fun _ => ⟨fun all b member => all (a, b) ⟨b, member, rfl⟩, ?_⟩
    rintro all _ ⟨b, member, rfl⟩
    exact all b member

/-- Nothing is reported for a day when of the meetings on it no two share time. -/
theorem onDay_eq_nil_iff {meetings : List (Int × Meeting)} {d : Day} :
    onDay meetings d = [] ↔
      meetings.Pairwise fun a b =>
        a.2.days.has d = true → b.2.days.has d = true → a.2.sharesTime b.2 = false := by
  rw [onDay, among, List.map_eq_nil_iff, List.filter_eq_nil_iff, ← List.pairwise_filter,
    ← forall_mem_pairs]
  simp only [Bool.not_eq_true]

theorem clashes_eq_nil_iff {meetings : List (Int × Meeting)} :
    (detect meetings).clashes = [] ↔ Apart (meetings.map Prod.snd) := by
  rw [clashes_detect]
  simp only [List.flatMap_eq_nil_iff, onDay_eq_nil_iff, Day.mem_all, true_implies, Apart,
    List.pairwise_map, Meeting.overlaps_eq_false_iff]
  simp only [List.pairwise_iff_forall_sublist]
  exact ⟨fun all _ _ inside d => all d inside, fun all d _ _ inside => all inside d⟩

end Conflict

end Timetable
