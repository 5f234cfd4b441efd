import Mathlib.Data.List.Forall2
import Timetable.Proofs.Conflict
import Timetable.Proofs.ListOrder

/-!
# What is reported as a clash

An encounter is a day and two positions of a list of meetings, the smaller one first. It happens
when both meetings cover a minute of that day. The report has one clash for each encounter that
happens, and in the order of the encounters: by day, then by the first position, then by the second
(`Conflict.detect_exact`). To read positions off the search, the search is done on the meetings with
their positions (`Conflict.sightings`), which only labels what it finds (`pairs_map`).
-/

namespace Timetable

namespace Meeting

/-- The meeting takes place in this minute of this day. -/
def Covers (m : Meeting) (d : Day) (minute : Nat) : Prop :=
  m.days.has d = true ∧ m.start ≤ minute ∧ minute < m.stop

/-- Windows share time when some minute lies in both: the later of the two starts does. -/
theorem sharesTime_iff {m n : Meeting} :
    m.sharesTime n = true ↔
      ∃ minute, (m.start ≤ minute ∧ minute < m.stop) ∧ n.start ≤ minute ∧ minute < n.stop := by
  have first := m.start_lt_stop
  have second := n.start_lt_stop
  rw [sharesTime, Bool.and_eq_true, decide_eq_true_iff, decide_eq_true_iff]
  constructor
  · intro crossed
    exact ⟨max m.start n.start, by omega, by omega⟩
  · intro shared
    rcases shared with ⟨minute, here, there⟩
    omega

theorem exists_covers_iff {m n : Meeting} {d : Day} :
    (∃ minute, m.Covers d minute ∧ n.Covers d minute) ↔
      (m.days.has d = true ∧ n.days.has d = true) ∧ m.sharesTime n = true := by
  rw [sharesTime_iff]
  constructor
  · intro covered
    rcases covered with ⟨minute, ⟨here, inside⟩, there, beside⟩
    exact ⟨⟨here, there⟩, minute, inside, beside⟩
  · intro shared
    rcases shared with ⟨⟨here, there⟩, minute, inside, beside⟩
    exact ⟨minute, ⟨here, inside⟩, there, beside⟩

/-- Meetings overlap when some minute of the week is covered by both. -/
theorem overlaps_iff {m n : Meeting} :
    m.overlaps n = true ↔ ∃ d minute, m.Covers d minute ∧ n.Covers d minute := by
  simp only [exists_covers_iff, exists_and_right]
  rw [overlaps, Bool.and_eq_true, DaySet.meets_iff]

end Meeting

namespace Conflict

/-! ## Pairs of a list -/

section Pairs

variable {α β : Type} {l : List α}

theorem pairs_map (f : α → β) (l : List α) : pairs (l.map f) = (pairs l).map (Prod.map f f) := by
  induction l with
  | nil => rfl
  | cons x rest ih =>
    rw [List.map_cons, pairs, pairs, ih, List.map_append, List.map_map, List.map_map]
    rfl

/-- In an ordered list the pairs are those of a smaller and a greater element. -/
theorem mem_pairs_iff {f : α → Nat} (ordered : l.Pairwise fun a b => f a < f b) {x : α × α} :
    x ∈ pairs l ↔ x.1 ∈ l ∧ x.2 ∈ l ∧ f x.1 < f x.2 := by
  induction l with
  | nil => simp [pairs]
  | cons a rest ih =>
    obtain ⟨least, ordered⟩ := List.pairwise_cons.mp ordered
    rw [pairs, List.mem_append, List.mem_map, ih ordered]
    constructor
    · intro listed
      rcases listed with ⟨b, later, rfl⟩ | ⟨first, second, lt⟩
      · exact ⟨List.mem_cons_self, List.mem_cons_of_mem _ later, least b later⟩
      · exact ⟨List.mem_cons_of_mem _ first, List.mem_cons_of_mem _ second, lt⟩
    · intro among
      obtain ⟨first, second, lt⟩ := among
      rcases List.mem_cons.mp second with same | second
      · -- Nothing in the list is smaller than its first element.
        rw [same] at lt
        rcases List.mem_cons.mp first with here | later
        · rw [here] at lt
          omega
        · have above := least _ later
          omega
      · rcases List.mem_cons.mp first with here | later
        · exact Or.inl ⟨x.2, second, by rw [← here]⟩
        · exact Or.inr ⟨later, second, lt⟩

/-- The pairs of an ordered list come in lexicographic order. -/
theorem pairwise_pairs {r : α → α → Prop} (ordered : l.Pairwise r) :
    (pairs l).Pairwise fun x y => r x.1 y.1 ∨ x.1 = y.1 ∧ r x.2 y.2 := by
  induction l with
  | nil => exact .nil
  | cons a rest ih =>
    obtain ⟨least, ordered⟩ := List.pairwise_cons.mp ordered
    rw [pairs]
    apply List.pairwise_append.mpr
    refine ⟨List.pairwise_map.mpr (ordered.imp fun lt => Or.inr ⟨rfl, lt⟩), ih ordered, ?_⟩
    intro x here y later
    obtain ⟨b, -, rfl⟩ := List.mem_map.mp here
    refine Or.inl (least y.1 ?_)
    exact forall_mem_pairs (R := fun c _ => c ∈ rest).mpr
      (List.pairwise_of_forall_mem_list fun c among _ _ => among) y later

end Pairs

/-! ## Encounters -/

/-- Two positions of a list of meetings, on a day. -/
structure Encounter where
  day : Day
  first : Nat
  second : Nat
  deriving DecidableEq

/-- The order of a report: by day, then by the first position, then by the second. -/
def Encounter.Before (x y : Encounter) : Prop :=
  x.day.index < y.day.index ∨
    x.day = y.day ∧ (x.first < y.first ∨ x.first = y.first ∧ x.second < y.second)

/-- The meetings at the two positions, the smaller one first, cover a minute of the day. -/
def Encounter.Happens (meetings : List (Int × Meeting)) (x : Encounter) : Prop :=
  x.first < x.second ∧
    ∃ a b, meetings[x.first]? = some a ∧ meetings[x.second]? = some b ∧
      ∃ minute, a.2.Covers x.day minute ∧ b.2.Covers x.day minute

/-- The clash names the day and, in order, the ids at the two positions. -/
def Encounter.Names (meetings : List (Int × Meeting)) (x : Encounter) (clash : Clash) : Prop :=
  clash.day = x.day ∧ (meetings[x.first]?).map Prod.fst = some clash.first ∧
    (meetings[x.second]?).map Prod.fst = some clash.second

/-- A meeting with its id and its position in the list. -/
abbrev Entry := (Int × Meeting) × Nat

/-- What the search finds on meetings that carry their positions. -/
def sightings (meetings : List (Int × Meeting)) : List (Day × Entry × Entry) :=
  Day.all.flatMap fun d =>
    ((pairs (meetings.zipIdx.filter (·.1.2.days.has d))).filter fun x =>
      x.1.1.2.sharesTime x.2.1.2).map (d, ·)

def encounterOf (x : Day × Entry × Entry) : Encounter := ⟨x.1, x.2.1.2, x.2.2.2⟩

def clashOf (x : Day × Entry × Entry) : Clash := ⟨x.1, x.2.1.1.1, x.2.2.1.1⟩

variable {meetings : List (Int × Meeting)}

theorem onDay_eq (meetings : List (Int × Meeting)) (d : Day) :
    onDay meetings d =
      (((pairs (meetings.zipIdx.filter (·.1.2.days.has d))).filter fun x =>
        x.1.1.2.sharesTime x.2.1.2).map (d, ·)).map clashOf := by
  conv => lhs; rw [← List.zipIdx_map_fst 0 meetings]
  rw [onDay, among, List.filter_map, pairs_map, List.filter_map, List.map_map, List.map_map]
  rfl

theorem clashes_eq (meetings : List (Int × Meeting)) :
    (detect meetings).clashes = (sightings meetings).map clashOf := by
  rw [clashes_detect, sightings, List.map_flatMap]
  exact List.flatMap_congr fun d _ => onDay_eq meetings d

/-- Two entries are found on a day when they come in order and share a minute of it. -/
theorem mem_sightings_iff {d : Day} {a b : Entry} :
    (d, a, b) ∈ sightings meetings ↔
      (a ∈ meetings.zipIdx ∧ b ∈ meetings.zipIdx ∧ a.2 < b.2) ∧
        ∃ minute, a.1.2.Covers d minute ∧ b.1.2.Covers d minute := by
  have ordered : (meetings.zipIdx.filter (·.1.2.days.has d)).Pairwise fun x y => x.2 < y.2 :=
    (ordered_zipIdx meetings).filter _
  have onThisDay : (d, a, b) ∈ sightings meetings ↔
      (a, b) ∈ pairs (meetings.zipIdx.filter (·.1.2.days.has d)) ∧
        a.1.2.sharesTime b.1.2 = true := by
    simp [sightings, Day.mem_all]
  rw [onThisDay, mem_pairs_iff ordered, List.mem_filter, List.mem_filter,
    Meeting.exists_covers_iff]
  constructor
  · intro found
    obtain ⟨⟨⟨first, here⟩, ⟨second, there⟩, lt⟩, shares⟩ := found
    exact ⟨⟨first, second, lt⟩, ⟨here, there⟩, shares⟩
  · intro met
    obtain ⟨⟨first, second, lt⟩, ⟨here, there⟩, shares⟩ := met
    exact ⟨⟨⟨first, here⟩, ⟨second, there⟩, lt⟩, shares⟩

/-- The encounters that are found are those that happen. -/
theorem mem_map_encounterOf {x : Encounter} :
    x ∈ (sightings meetings).map encounterOf ↔ x.Happens meetings := by
  rw [List.mem_map]
  constructor
  · intro found
    obtain ⟨⟨d, a, b⟩, sighted, rfl⟩ := found
    obtain ⟨⟨first, second, lt⟩, covered⟩ := mem_sightings_iff.mp sighted
    exact ⟨lt, a.1, b.1, List.mem_zipIdx_iff_getElem?.mp first,
      List.mem_zipIdx_iff_getElem?.mp second, covered⟩
  · intro happens
    obtain ⟨lt, a, b, first, second, covered⟩ := happens
    refine ⟨(x.day, (a, x.first), (b, x.second)), ?_, rfl⟩
    refine mem_sightings_iff.mpr ⟨⟨?_, ?_, lt⟩, covered⟩
    · exact List.mem_zipIdx_iff_getElem?.mpr first
    · exact List.mem_zipIdx_iff_getElem?.mpr second

theorem names_of_mem {x : Day × Entry × Entry} (sighted : x ∈ sightings meetings) :
    (encounterOf x).Names meetings (clashOf x) := by
  obtain ⟨d, a, b⟩ := x
  obtain ⟨⟨first, second, -⟩, -⟩ := mem_sightings_iff.mp sighted
  rw [List.mem_zipIdx_iff_getElem?] at first second
  exact ⟨rfl, congrArg (Option.map Prod.fst) first, congrArg (Option.map Prod.fst) second⟩

/-- The encounters are found in their order, and so each once. -/
theorem pairwise_sightings (meetings : List (Int × Meeting)) :
    ((sightings meetings).map encounterOf).Pairwise Encounter.Before := by
  rw [sightings, List.map_flatMap, List.pairwise_flatMap]
  constructor
  · intro d _
    have ordered : (meetings.zipIdx.filter (·.1.2.days.has d)).Pairwise fun x y => x.2 < y.2 :=
      (ordered_zipIdx meetings).filter _
    rw [List.map_map, List.pairwise_map]
    refine ((pairwise_pairs ordered).filter _).imp fun before => Or.inr ⟨rfl, ?_⟩
    exact before.imp id fun later => ⟨congrArg Prod.snd later.1, later.2⟩
  · have days : Day.all.Pairwise fun d e => d.index < e.index := by decide
    refine days.imp fun earlier x here y there => Or.inl ?_
    obtain ⟨_, _, rfl⟩ := List.mem_map.mp here
    obtain ⟨_, _, rfl⟩ := List.mem_map.mp there
    simp_all [encounterOf]

theorem hasConflict_iff :
    (detect meetings).hasConflict = true ↔ ∃ x, Encounter.Happens meetings x := by
  rw [hasConflict_detect, clashes_eq]
  constructor
  · intro reported
    obtain ⟨_, listed⟩ := reported
    obtain ⟨x, sighted, -⟩ := List.mem_map.mp listed
    exact ⟨encounterOf x, mem_map_encounterOf.mp (List.mem_map_of_mem sighted)⟩
  · intro happens
    obtain ⟨x, happens⟩ := happens
    obtain ⟨y, sighted, -⟩ := List.mem_map.mp (mem_map_encounterOf.mpr happens)
    exact ⟨clashOf y, List.mem_map_of_mem sighted⟩

theorem isClashing_detect {id : Int} :
    (detect meetings).isClashing id = true ↔
      ∃ clash ∈ (detect meetings).clashes, id = clash.first ∨ id = clash.second :=
  ConflictReport.isClashing_iff.trans mem_clashing_detect

/-- Where no id repeats, an id clashes when its meeting shares a minute with that of another id. -/
theorem isClashing_detect_iff (distinct : (meetings.map Prod.fst).Nodup) {id : Int} :
    (detect meetings).isClashing id = true ↔ ∃ m, (id, m) ∈ meetings ∧ ∃ x ∈ meetings,
      x.1 ≠ id ∧ ∃ d minute, m.Covers d minute ∧ x.2.Covers d minute := by
  have apart : meetings.Pairwise fun a b => a.1 ≠ b.1 := List.pairwise_map.mp distinct
  rw [isClashing_detect, clashes_eq]
  constructor
  · intro reported
    obtain ⟨_, listed, named⟩ := reported
    obtain ⟨⟨d, a, b⟩, sighted, rfl⟩ := List.mem_map.mp listed
    obtain ⟨⟨first, second, lt⟩, minute, here, there⟩ := mem_sightings_iff.mp sighted
    obtain ⟨hi, at_i⟩ := List.getElem?_eq_some_iff.mp (List.mem_zipIdx_iff_getElem?.mp first)
    obtain ⟨hj, at_j⟩ := List.getElem?_eq_some_iff.mp (List.mem_zipIdx_iff_getElem?.mp second)
    have differ := List.pairwise_iff_getElem.mp apart a.2 b.2 hi hj lt
    have among : a.1 ∈ meetings := at_i ▸ List.getElem_mem hi
    have among' : b.1 ∈ meetings := at_j ▸ List.getElem_mem hj
    rw [at_i, at_j] at differ
    rcases named with rfl | rfl
    · exact ⟨a.1.2, among, b.1, among', differ.symm, d, minute, here, there⟩
    · exact ⟨b.1.2, among', a.1, among, differ, d, minute, there, here⟩
  · intro met
    obtain ⟨m, among, x, among', differ, d, minute, here, there⟩ := met
    obtain ⟨i, at_i⟩ := List.getElem?_of_mem among
    obtain ⟨j, at_j⟩ := List.getElem?_of_mem among'
    have first : ((id, m), i) ∈ meetings.zipIdx := List.mem_zipIdx_iff_getElem?.mpr at_i
    have second : (x, j) ∈ meetings.zipIdx := List.mem_zipIdx_iff_getElem?.mpr at_j
    rcases Nat.lt_trichotomy i j with lt | rfl | gt
    · have sighted := mem_sightings_iff.mpr ⟨⟨first, second, lt⟩, minute, here, there⟩
      exact ⟨_, List.mem_map_of_mem sighted, by simp [clashOf]⟩
    · cases Option.some.inj (at_i.symm.trans at_j)
      exact absurd rfl differ
    · have sighted := mem_sightings_iff.mpr ⟨⟨second, first, gt⟩, minute, there, here⟩
      exact ⟨_, List.mem_map_of_mem sighted, by simp [clashOf]⟩

/-- The report has one clash for each encounter that happens, in the order of the encounters. The
ids that clash are those in a clash, and there is a conflict when the meetings at two positions
overlap, which means that both cover some minute of the week. -/
theorem detect_exact (meetings : List (Int × Meeting)) :
    (∃ found : List Encounter,
      found.Pairwise Encounter.Before ∧ (∀ x, x ∈ found ↔ x.Happens meetings) ∧
        List.Forall₂ (Encounter.Names meetings) found (detect meetings).clashes) ∧
      (∀ id, id ∈ (detect meetings).clashing ↔
        ∃ clash ∈ (detect meetings).clashes, id = clash.first ∨ id = clash.second) ∧
      ((detect meetings).hasConflict = true ↔
        ∃ (i j : Nat) (a b : Int × Meeting), i ≠ j ∧ meetings[i]? = some a ∧ meetings[j]? = some b ∧
          a.2.overlaps b.2 = true) ∧
      ∀ m n : Meeting, m.overlaps n = true ↔ ∃ d minute, m.Covers d minute ∧ n.Covers d minute := by
  refine ⟨⟨(sightings meetings).map encounterOf, pairwise_sightings meetings,
    fun x => mem_map_encounterOf, ?_⟩, fun id => mem_clashing_detect, ?_,
    fun m n => Meeting.overlaps_iff⟩
  · rw [clashes_eq, List.forall₂_map_left_iff, List.forall₂_map_right_iff, List.forall₂_same]
    exact fun x sighted => names_of_mem sighted
  · rw [hasConflict_iff]
    constructor
    · intro happens
      obtain ⟨x, lt, a, b, first, second, covered⟩ := happens
      exact ⟨x.first, x.second, a, b, Nat.ne_of_lt lt, first, second,
        Meeting.overlaps_iff.mpr ⟨x.day, covered⟩⟩
    · intro overlap
      obtain ⟨i, j, a, b, apart, first, second, overlaps⟩ := overlap
      obtain ⟨d, minute, here, there⟩ := Meeting.overlaps_iff.mp overlaps
      rcases Nat.lt_or_gt_of_ne apart with lt | gt
      · exact ⟨⟨d, i, j⟩, lt, a, b, first, second, minute, here, there⟩
      · exact ⟨⟨d, j, i⟩, gt, b, a, second, first, minute, there, here⟩

end Conflict

end Timetable
