import Mathlib.Algebra.BigOperators.Group.List.Basic
import Mathlib.Algebra.BigOperators.Ring.List
import Mathlib.Algebra.Order.Field.Basic
import Mathlib.Algebra.Order.Field.Rat
import Mathlib.Tactic.Linarith
import Mathlib.Tactic.NormNum
import Mathlib.Tactic.Positivity
import Timetable.Demand

/-!
# How the estimates for demand fit together

The estimates are read here over the rational numbers, where divisions and products are exact. The
band of a section can then be told from its demand and its capacity without a division
(`Demand.le_band_iff`), and its probability is what the ratio leaves of one (`Demand.probability_eq`);
so a section under more demand is in no lower band and has no greater probability. The probability of
a schedule is the product of those of its sections (`Demand.scheduleProbability_eq`). Main statement:
`Demand.estimates_agree`.
-/

namespace Timetable

/-! ## Bands -/

namespace DemandBand

/-- The least part of the capacity that puts a section into the band, in quarters. -/
def quarters : DemandBand → Nat
  | low => 0 | moderate => 2 | high => 3 | overCapacity => 4

/-- A band is above another one when it takes more demand to get into it. -/
instance : LE DemandBand := ⟨fun a b => a.quarters ≤ b.quarters⟩

theorem le_iff {a b : DemandBand} : a ≤ b ↔ a.quarters ≤ b.quarters := Iff.rfl

theorem overCapacity_le_iff {b : DemandBand} : overCapacity ≤ b ↔ b = overCapacity := by
  cases b <;> simp [le_iff, quarters]

theorem eq_low_iff {b : DemandBand} : b = low ↔ ¬moderate ≤ b := by
  cases b <;> simp [le_iff, quarters]

/-- A ratio is in a band or above it when it is not below the bound of the band. -/
theorem le_ofRatio_iff {b : DemandBand} {x : ℚ} (positive : 0 ≤ x) :
    b ≤ ofRatio x ↔ (b.quarters : ℚ) ≤ 4 * x := by
  have whole : (1.0 : ℚ) = 1 := by norm_num
  have most : (0.75 : ℚ) = 3 / 4 := by norm_num
  have half : (0.5 : ℚ) = 1 / 2 := by norm_num
  rw [ofRatio, whole, most, half, le_iff]
  -- In each of the four ranges of the ratio, the bounds of the four bands are compared with it.
  split_ifs
  all_goals cases b <;> norm_num [quarters] <;> linarith

end DemandBand

/-! ## Sections -/

namespace Section

/-- The section has room for a number of students. -/
def Holds (s : Section) (c : Nat) : Prop := s.capacity = some c ∧ 0 < c

theorem exists_holds_or (s : Section) : (∃ c, s.Holds c) ∨ ∀ c, ¬s.Holds c := by
  rw [← not_exists]
  exact Classical.em _

end Section

namespace Demand

variable {s t : Section} {c : Nat}

theorem clampUnit_of_le {x : ℚ} (low : 0 ≤ x) (high : x ≤ 1) : clampUnit x = x := by
  have zero : (0.0 : ℚ) = 0 := by norm_num
  have one : (1.0 : ℚ) = 1 := by norm_num
  rw [clampUnit, zero, one, if_neg (not_lt.mpr low), if_neg (not_lt.mpr high)]

theorem ratio_of_holds (holds : s.Holds c) : (ratio s : ℚ) = s.demand / c := by
  unfold ratio
  simp only [holds.1, if_pos holds.2]

theorem ratio_of_unbounded (unbounded : ∀ c, ¬s.Holds c) : (ratio s : ℚ) = 0 := by
  unfold ratio
  split
  · next c capacity =>
    rw [if_neg fun positive => unbounded c ⟨capacity, positive⟩]
    norm_num
  · norm_num

theorem probability_of_holds (holds : s.Holds c) :
    (probability s : ℚ) = ((c - s.demand : Nat) : ℚ) / c := by
  have positive : (0 : ℚ) < c := Nat.cast_pos.mpr holds.2
  have within : ((c - s.demand : Nat) : ℚ) ≤ c := Nat.cast_le.mpr (Nat.sub_le c s.demand)
  unfold probability
  simp only [holds.1, if_pos holds.2]
  exact clampUnit_of_le (by positivity) ((div_le_one positive).mpr within)

theorem probability_of_unbounded (unbounded : ∀ c, ¬s.Holds c) : (probability s : ℚ) = 1 := by
  unfold probability
  split
  · next c capacity =>
    rw [if_neg fun positive => unbounded c ⟨capacity, positive⟩]
    norm_num
  · norm_num

theorem ratio_nonneg (s : Section) : 0 ≤ (ratio s : ℚ) := by
  rcases s.exists_holds_or with ⟨c, holds⟩ | unbounded
  · rw [ratio_of_holds holds]
    positivity
  · rw [ratio_of_unbounded unbounded]

/-- The probability is what the ratio leaves of one. -/
theorem probability_eq (s : Section) : (probability s : ℚ) = 1 - min 1 (ratio s) := by
  rcases s.exists_holds_or with ⟨c, holds⟩ | unbounded
  · have positive : (0 : ℚ) < c := Nat.cast_pos.mpr holds.2
    rw [probability_of_holds holds, ratio_of_holds holds]
    rcases le_total s.demand c with room | full
    · have part : (s.demand : ℚ) / c ≤ 1 := (div_le_one positive).mpr (Nat.cast_le.mpr room)
      rw [min_eq_right part, Nat.cast_sub room, sub_div, div_self positive.ne']
    · have whole : 1 ≤ (s.demand : ℚ) / c := (one_le_div positive).mpr (Nat.cast_le.mpr full)
      rw [min_eq_left whole, Nat.sub_eq_zero_of_le full, Nat.cast_zero, zero_div, sub_self]
  · rw [probability_of_unbounded unbounded, ratio_of_unbounded unbounded, min_eq_right zero_le_one,
      sub_zero]

/-- The band of a section compares its demand with quarters of its capacity. -/
theorem le_band_iff (holds : s.Holds c) (b : DemandBand) :
    b ≤ band ℚ s ↔ b.quarters * c ≤ 4 * s.demand := by
  have positive : (0 : ℚ) < c := Nat.cast_pos.mpr holds.2
  rw [band, DemandBand.le_ofRatio_iff (ratio_nonneg s), ratio_of_holds holds, ← mul_div_assoc,
    le_div_iff₀ positive]
  exact_mod_cast Iff.rfl

/-- A section in the highest band has no probability, and only such a section. -/
theorem probability_eq_zero_iff (s : Section) :
    (probability s : ℚ) = 0 ↔ band ℚ s = .overCapacity := by
  have full : (1 : ℚ) ≤ ratio s ↔ DemandBand.overCapacity ≤ band ℚ s := by
    rw [band, DemandBand.le_ofRatio_iff (ratio_nonneg s)]
    norm_num [DemandBand.quarters]
  rw [probability_eq, sub_eq_zero, eq_comm, min_eq_left_iff, full, DemandBand.overCapacity_le_iff]

/-- Demand that rises beside a capacity moves the ratio up. -/
theorem ratio_le (capacity : t.capacity = s.capacity) (demand : s.demand ≤ t.demand) :
    (ratio s : ℚ) ≤ ratio t := by
  rcases s.exists_holds_or with ⟨c, holds⟩ | unbounded
  · have holds' : t.Holds c := ⟨capacity.trans holds.1, holds.2⟩
    rw [ratio_of_holds holds, ratio_of_holds holds']
    gcongr
  · rw [ratio_of_unbounded unbounded]
    exact ratio_nonneg t

theorem band_le (capacity : t.capacity = s.capacity) (demand : s.demand ≤ t.demand) :
    band ℚ s ≤ band ℚ t := by
  have rising : (ratio s : ℚ) ≤ ratio t := ratio_le capacity demand
  have own : (DemandBand.quarters (band ℚ s) : ℚ) ≤ 4 * ratio s :=
    (DemandBand.le_ofRatio_iff (ratio_nonneg s)).mp (Nat.le_refl _)
  exact (DemandBand.le_ofRatio_iff (ratio_nonneg t)).mpr (by linarith)

theorem probability_le (capacity : t.capacity = s.capacity) (demand : s.demand ≤ t.demand) :
    (probability t : ℚ) ≤ probability s := by
  rw [probability_eq, probability_eq]
  have rising : min 1 (ratio s : ℚ) ≤ min 1 (ratio t) :=
    min_le_min le_rfl (ratio_le capacity demand)
  linarith

theorem probability_mem (s : Section) : 0 ≤ (probability s : ℚ) ∧ (probability s : ℚ) ≤ 1 := by
  have least : 0 ≤ min 1 (ratio s : ℚ) := le_min zero_le_one (ratio_nonneg s)
  have most : min 1 (ratio s : ℚ) ≤ 1 := min_le_left _ _
  rw [probability_eq]
  constructor <;> linarith

/-! ## Schedules -/

theorem scheduleProbability_eq (sections : List Section) :
    (scheduleProbability sections : ℚ) = (sections.map probability).prod := by
  have one : (1.0 : ℚ) = 1 := by norm_num
  rw [scheduleProbability, one, List.prod_eq_foldl]

theorem scheduleProbability_cons (s : Section) (sections : List Section) :
    (scheduleProbability (s :: sections) : ℚ) = probability s * scheduleProbability sections := by
  rw [scheduleProbability_eq, scheduleProbability_eq, List.map_cons, List.prod_cons]

theorem scheduleProbability_perm {sections others : List Section} (perm : others.Perm sections) :
    (scheduleProbability others : ℚ) = scheduleProbability sections := by
  rw [scheduleProbability_eq, scheduleProbability_eq]
  exact (perm.map probability).prod_eq

theorem scheduleProbability_mem (sections : List Section) :
    0 ≤ (scheduleProbability sections : ℚ) ∧ (scheduleProbability sections : ℚ) ≤ 1 := by
  induction sections with
  | nil => norm_num [scheduleProbability]
  | cons s rest ih =>
    rw [scheduleProbability_cons]
    obtain ⟨low, high⟩ := probability_mem s
    exact ⟨mul_nonneg low ih.1, mul_le_one₀ high ih.1 ih.2⟩

/-! ## Agreement -/

/-- The estimates for one section agree with each other and with the larger of its counters. -/
structure Agrees (s : Section) : Prop where
  ratio_eq : ∀ c, s.Holds c → (ratio s : ℚ) = (max s.selectedCount s.enrolled : ℕ) / c
  overCapacity : ∀ c, s.Holds c →
    (band ℚ s = .overCapacity ↔ c ≤ max s.selectedCount s.enrolled)
  high : ∀ c, s.Holds c → (.high ≤ band ℚ s ↔ 3 * c ≤ 4 * max s.selectedCount s.enrolled)
  moderate : ∀ c, s.Holds c → (.moderate ≤ band ℚ s ↔ c ≤ 2 * max s.selectedCount s.enrolled)
  low : (∀ c, ¬s.Holds c) → (ratio s : ℚ) = 0 ∧ band ℚ s = .low
  unit : 0 ≤ (probability s : ℚ) ∧ (probability s : ℚ) ≤ 1
  complement : (probability s : ℚ) = 1 - min 1 (ratio s)
  zero : (probability s : ℚ) = 0 ↔ band ℚ s = .overCapacity
  /-- More demand puts a section into no lower band and gives it no greater probability. -/
  rising : ∀ t : Section, t.capacity = s.capacity → s.selectedCount ≤ t.selectedCount →
    s.enrolled ≤ t.enrolled → band ℚ s ≤ band ℚ t ∧ (probability t : ℚ) ≤ probability s

/-- The probability of a schedule agrees with the bands of its sections. -/
structure ScheduleAgrees (sections : List Section) : Prop where
  unit : 0 ≤ (scheduleProbability sections : ℚ) ∧ (scheduleProbability sections : ℚ) ≤ 1
  order : ∀ others : List Section, others.Perm sections →
    (scheduleProbability others : ℚ) = scheduleProbability sections
  /-- One more section, wherever it is put in, does not raise the probability. -/
  added : ∀ before behind s, sections = before ++ behind →
    (scheduleProbability (before ++ s :: behind) : ℚ) ≤ scheduleProbability sections
  zero : (scheduleProbability sections : ℚ) = 0 ↔ ∃ s ∈ sections, band ℚ s = .overCapacity

theorem agrees (s : Section) : Agrees s := by
  constructor
  case ratio_eq => exact fun c => ratio_of_holds
  case overCapacity =>
    intro c holds
    rw [← DemandBand.overCapacity_le_iff, le_band_iff holds, DemandBand.quarters, Section.demand]
    omega
  case high =>
    intro c holds
    exact le_band_iff holds .high
  case moderate =>
    intro c holds
    rw [le_band_iff holds, DemandBand.quarters, Section.demand]
    omega
  case low =>
    intro unbounded
    refine ⟨ratio_of_unbounded unbounded, ?_⟩
    rw [DemandBand.eq_low_iff, band, DemandBand.le_ofRatio_iff (ratio_nonneg s),
      ratio_of_unbounded unbounded]
    norm_num [DemandBand.quarters]
  case unit => exact probability_mem s
  case complement => exact probability_eq s
  case zero => exact probability_eq_zero_iff s
  case rising =>
    intro t capacity selected enrolled
    have demand : s.demand ≤ t.demand := max_le_max selected enrolled
    exact ⟨band_le capacity demand, probability_le capacity demand⟩

theorem scheduleAgrees (sections : List Section) : ScheduleAgrees sections := by
  constructor
  case unit => exact scheduleProbability_mem sections
  case order => exact fun others => scheduleProbability_perm
  case added =>
    intro before behind s whole
    rw [whole, scheduleProbability_perm List.perm_middle, scheduleProbability_cons]
    exact mul_le_of_le_one_left (scheduleProbability_mem _).1 (probability_mem s).2
  case zero =>
    rw [scheduleProbability_eq, List.prod_eq_zero_iff, List.mem_map]
    simp only [probability_eq_zero_iff]

/-- Read over the rational numbers, the estimates for every section and for every schedule agree. -/
theorem estimates_agree :
    (∀ s : Section, Agrees s) ∧ ∀ sections : List Section, ScheduleAgrees sections :=
  ⟨agrees, scheduleAgrees⟩

/-- Ten seats, of which forty are asked for by last enrolment. -/
def overfull : Section :=
  .ofRecord 1
    { id := 11, courseId := 1, code := "L1", capacity := some 10, selectedCount := some 3
      enrolled := some 40 }

/-- A section with fewer seats than are asked for leaves no chance to it, nor to a schedule. -/
theorem estimates_agree_overfull :
    overfull.Holds 10 ∧ (ratio overfull : ℚ) = 4 ∧ band ℚ overfull = .overCapacity ∧
      (probability overfull : ℚ) = 0 ∧
      ∀ sections, overfull ∈ sections → (scheduleProbability sections : ℚ) = 0 := by
  have holds : overfull.Holds 10 := ⟨rfl, by decide⟩
  have told := estimates_agree.1 overfull
  have full := (told.overCapacity 10 holds).mpr (by decide)
  refine ⟨holds, ?_, full, told.zero.mpr full, ?_⟩
  · have larger : max overfull.selectedCount overfull.enrolled = 40 := by decide
    rw [told.ratio_eq 10 holds, larger]
    norm_num
  · intro sections among
    exact (estimates_agree.2 sections).zero.mpr ⟨overfull, among, full⟩

end Demand

end Timetable
