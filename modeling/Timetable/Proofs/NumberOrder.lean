import Mathlib
import Timetable.Demand

/-!
# The order of numbers and of their keys

`Demand.orderKey` orders numbers by their bit patterns. A word is a sign, an exponent and a mantissa
(`Reads`); without its sign it counts the numbers between zero and the one that it stands for
(`place`), and numbers compare as these counts do (`compare_eq_lt_iff`). So a smaller number has a
smaller key, the key puts the zero with a sign in front of the other one, and what is no number at
the end. Main statements: `Demand.orderKey_lt_iff`, `Demand.orderKey_inj`.
-/

namespace Timetable.Demand

open Float.Model
open Float.Model.UnpackedFloat (Sign unpackSign unpackExponent unpackMantissa)

/-- One number goes before another when it is smaller. Of the two zeros the one with a sign goes
first, and what is no number goes last. -/
def Below (x y : Float) : Prop :=
  x < y ∨ (x = -0.0 ∧ y = 0.0) ∨ (x ≠ .nan ∧ y = .nan)

/-! ## Words -/

/-- The bit of a sign, in its place in a word. -/
def signBit : Sign → Nat
  | .positive => 0
  | .negative => 2 ^ 63

/-- What a word is read as. -/
inductive Reads : Nat → UnpackedFloat → Prop
  | zero (s : Sign) : Reads (signBit s) (.zero s)
  | subnormal (s : Sign) (m : Nat) (positive : 0 < m) :
    m < 2 ^ 52 → Reads (signBit s + m) (.finite s m (-1074) positive)
  | normal (s : Sign) (e m : Nat) (positive : 0 < 2 ^ 52 + m) :
    0 < e → e < 2047 → m < 2 ^ 52 →
    Reads (signBit s + e * 2 ^ 52 + m) (.finite s (2 ^ 52 + m) (e - 1075) positive)
  | infinity (s : Sign) : Reads (signBit s + 2047 * 2 ^ 52) (.infinity s)
  | notANumber (s : Sign) (m : Nat) :
    0 < m → m < 2 ^ 52 → Reads (signBit s + 2047 * 2 ^ 52 + m) .notANumber

section Fields

variable (bits : BitVec Format.binary64.numBits)

theorem toNat_unpackMantissa : (unpackMantissa bits).toNat = bits.toNat % 2 ^ 52 := by
  simp [unpackMantissa]

theorem toNat_unpackExponent : (unpackExponent bits).toNat = bits.toNat / 2 ^ 52 % 2 ^ 11 := by
  simp [unpackExponent, Nat.shiftRight_eq_div_pow]

theorem signBit_unpackSign :
    signBit (.ofBitVec (unpackSign bits)) = bits.toNat / 2 ^ 63 * 2 ^ 63 := by
  have bound : bits.toNat < 2 ^ 64 := bits.isLt
  have sign : (unpackSign bits).toNat = bits.toNat / 2 ^ 63 % 2 := by
    simp [unpackSign, Nat.shiftRight_eq_div_pow]
  have positive : unpackSign bits = 0#1 ↔ bits.toNat / 2 ^ 63 % 2 = 0 := by
    rw [← BitVec.toNat_inj, sign]
    rfl
  unfold Sign.ofBitVec
  simp only [positive]
  split
  · simp only [signBit]
    omega
  · simp only [signBit]
    omega

/-- A word is its sign, its exponent and its mantissa. -/
theorem toNat_eq_fields :
    bits.toNat = signBit (.ofBitVec (unpackSign bits)) + (unpackExponent bits).toNat * 2 ^ 52 +
      (unpackMantissa bits).toNat := by
  have bound : bits.toNat < 2 ^ 64 := bits.isLt
  rw [signBit_unpackSign, toNat_unpackExponent, toNat_unpackMantissa]
  omega

theorem reads_unpack : Reads bits.toNat (UnpackedFloat.unpack .binary64 bits) := by
  have bias : ((Format.binary64.exponentBias : Nat) : Int) = 1023 := rfl
  have exponent : (unpackExponent bits).toNat < 2048 := (unpackExponent bits).isLt
  have mantissa : (unpackMantissa bits).toNat < 2 ^ 52 := (unpackMantissa bits).isLt
  rw [toNat_eq_fields bits]
  simp only [UnpackedFloat.unpack]
  split
  · next top =>
    have largest : (unpackExponent bits).toNat = 2047 := by rw [top]; rfl
    rw [largest]
    split
    · next none => rw [none]; exact .infinity _
    · next some_bit =>
      exact .notANumber _ _ (Nat.pos_of_ne_zero fun h => some_bit (BitVec.eq_of_toNat_eq h)) mantissa
  · next below =>
    have below : (unpackExponent bits).toNat ≠ 2047 := fun h => below (BitVec.eq_of_toNat_eq h)
    split
    · next least =>
      have least : (unpackExponent bits).toNat = 0 := by rw [least]; rfl
      rw [least]
      split
      · next none => rw [none]; exact .zero _
      · exact .subnormal _ _ _ mantissa
    · next above =>
      have above : (unpackExponent bits).toNat ≠ 0 := fun h => above (BitVec.eq_of_toNat_eq h)
      have lead : (1#1 ++ unpackMantissa bits).toNat = 2 ^ 52 + (unpackMantissa bits).toNat := by
        rw [BitVec.toNat_append, ← Nat.shiftLeft_add_eq_or_of_lt mantissa]
        rfl
      simp only [lead]
      exact .normal _ _ _ _ (by omega) (by omega) mantissa

end Fields

/-! ## Places -/

/-- How many numbers a number is away from zero, with its sign. -/
def place : UnpackedFloat → Int
  | .infinity s => s.apply (2047 * 2 ^ 52)
  | .finite s m e _ => s.apply ((e + 1074) * 2 ^ 52 + m)
  | .zero _ | .notANumber => 0

/-- The place of the number that a word is read as. -/
def placeOf (word : Nat) : Int := if word < 2 ^ 63 then word else 2 ^ 63 - word

/-- It is a number, and when finite its mantissa has 53 bits, or fewer at the least exponent. -/
def Canonical : UnpackedFloat → Prop
  | .infinity _ | .zero _ => True
  | .finite _ m e _ => m < 2 ^ 53 ∧ -1074 ≤ e ∧ e ≤ 971 ∧ (2 ^ 52 ≤ m ∨ e = -1074)
  | .notANumber => False

/-- The number that a word is read as is in canonical form, and the word tells its place. -/
theorem Reads.canonical {n : Nat} {u : UnpackedFloat} (reads : Reads n u)
    (number : u ≠ .notANumber) :
    Canonical u ∧ place u = placeOf n ∧ n % 2 ^ 63 ≤ 2047 * 2 ^ 52 := by
  cases reads with
  | zero s => exact ⟨trivial, by cases s <;> decide⟩
  | subnormal s m positive small =>
    refine ⟨⟨by omega, by omega, by omega, .inr rfl⟩, ?_⟩
    cases s <;> simp only [place, placeOf, signBit, Sign.apply] <;> omega
  | normal s e m positive above below small =>
    refine ⟨⟨by omega, by omega, by omega, .inl (by omega)⟩, ?_⟩
    cases s <;> simp only [place, placeOf, signBit, Sign.apply] <;> omega
  | infinity s => exact ⟨trivial, by cases s <;> decide⟩
  | notANumber => exact absurd rfl number

section Compare

variable {s t : Sign} {m n : Nat} {e f : Int} {u v : UnpackedFloat}

/-- Exponents are compared first, and at the same exponent mantissas are. -/
theorem then_eq_lt_iff {positive : 0 < m} {positive' : 0 < n}
    (left : Canonical (.finite s m e positive)) (right : Canonical (.finite t n f positive')) :
    (compare e f).then (compare m n) = .lt ↔
      (e + 1074) * 2 ^ 52 + m < (f + 1074) * 2 ^ 52 + n := by
  obtain ⟨_, _, _, _⟩ := left
  obtain ⟨_, _, _, _⟩ := right
  rw [Ordering.then_eq_lt, Int.compare_eq_lt, Int.compare_eq_eq, Nat.compare_eq_lt]
  omega

theorem compare_eq_lt_iff (left : Canonical u) (right : Canonical v) :
    u.compare v = some .lt ↔ place u < place v := by
  cases u with
  | notANumber => cases left
  | infinity s =>
    cases v with
    | notANumber => cases right
    | infinity t => cases s <;> cases t <;> decide
    | zero t => cases s <;> cases t <;> decide
    | finite t n f positive =>
      obtain ⟨_, _, _, _⟩ := right
      cases s <;> cases t <;> simp only [UnpackedFloat.compare, place, Sign.apply,
        Option.some.injEq, reduceCtorEq, true_iff, false_iff] <;> omega
  | zero s =>
    cases v with
    | notANumber => cases right
    | infinity t => cases s <;> cases t <;> decide
    | zero t => cases s <;> cases t <;> decide
    | finite t n f positive =>
      obtain ⟨_, _, _, _⟩ := right
      cases s <;> cases t <;> simp only [UnpackedFloat.compare, place, Sign.apply,
        Option.some.injEq, reduceCtorEq, true_iff, false_iff] <;> omega
  | finite s m e positive =>
    cases v with
    | notANumber => cases right
    | infinity t =>
      obtain ⟨_, _, _, _⟩ := left
      cases s <;> cases t <;> simp only [UnpackedFloat.compare, place, Sign.apply,
        Option.some.injEq, reduceCtorEq, true_iff, false_iff] <;> omega
    | zero t =>
      obtain ⟨_, _, _, _⟩ := left
      cases s <;> cases t <;> simp only [UnpackedFloat.compare, place, Sign.apply,
        Option.some.injEq, reduceCtorEq, true_iff, false_iff] <;> omega
    | finite t n f positive' =>
      have forward := then_eq_lt_iff left right
      have backward := then_eq_lt_iff right left
      obtain ⟨_, _, _, _⟩ := left
      obtain ⟨_, _, _, _⟩ := right
      cases s <;> cases t <;> simp only [UnpackedFloat.compare, place, Sign.apply,
        Option.some.injEq, reduceCtorEq, true_iff, false_iff, Ordering.swap_then,
        Int.compare_swap, Nat.compare_swap, forward, backward] <;> omega

theorem compare_notANumber (u : UnpackedFloat) : u.compare .notANumber = none := by
  cases u with
  | notANumber | infinity | zero | finite => rfl

end Compare

/-! ## Keys -/

variable {x y : Float}

/-- Numbers are told by their words. -/
theorem eq_iff_toBits : x = y ↔ x.toBits.toNat = y.toBits.toNat := by
  rw [UInt64.toNat_inj, Float.toBits_inj]

theorem toNat_toBits_nan : Float.nan.toBits.toNat = 2047 * 2 ^ 52 + 2 ^ 51 := by decide

theorem unpack_eq_notANumber_iff : x.toModel.unpack = .notANumber ↔ x = .nan := by
  rw [← UnpackedFloat.isNaN_iff]
  have told : x.isNaN = decide (x = .nan) := Float.isNaN_eq_decide_eq_nan
  exact (Bool.eq_iff_iff.mp told).trans decide_eq_true_iff

theorem canonical_of_ne_nan (number : x ≠ .nan) :
    Canonical x.toModel.unpack ∧ place x.toModel.unpack = placeOf x.toBits.toNat ∧
      x.toBits.toNat % 2 ^ 63 ≤ 2047 * 2 ^ 52 :=
  (reads_unpack x.toBits.toBitVec).canonical (mt unpack_eq_notANumber_iff.mp number)

/-- Numbers compare as the places of their words do, and what is no number with nothing. -/
theorem lt_iff_placeOf_lt :
    x < y ↔ (x ≠ .nan ∧ y ≠ .nan) ∧ placeOf x.toBits.toNat < placeOf y.toBits.toNat := by
  have compared : x < y ↔ x.toModel.unpack.compare y.toModel.unpack = some .lt := by
    show Float.lt x y = true ↔ _
    rw [Float.lt, decide_eq_true_iff]
    show UnpackedFloat.lt _ _ = true ↔ _
    rw [UnpackedFloat.lt, beq_iff_eq]
  rw [compared]
  by_cases nan : x = .nan
  · rw [unpack_eq_notANumber_iff.mpr nan]
    exact iff_of_false nofun fun both => both.1.1 nan
  · by_cases nan' : y = .nan
    · rw [unpack_eq_notANumber_iff.mpr nan', compare_notANumber]
      exact iff_of_false nofun fun both => both.1.2 nan'
    · obtain ⟨left, here, -⟩ := canonical_of_ne_nan nan
      obtain ⟨right, there, -⟩ := canonical_of_ne_nan nan'
      rw [compare_eq_lt_iff left right, here, there]
      exact (and_iff_right ⟨nan, nan'⟩).symm

theorem orderKey_eq (x : Float) :
    (x.toBits.toNat < 2 ^ 63 ∧ orderKey x = 2 ^ 63 + x.toBits.toNat ∧
        placeOf x.toBits.toNat = x.toBits.toNat) ∨
      (2 ^ 63 ≤ x.toBits.toNat ∧ orderKey x = 2 ^ 64 - 1 - x.toBits.toNat ∧
        placeOf x.toBits.toNat = 2 ^ 63 - x.toBits.toNat) := by
  rcases Nat.lt_or_ge x.toBits.toNat (2 ^ 63) with low | high
  · exact .inl ⟨low, if_pos low, if_pos low⟩
  · exact .inr ⟨high, if_neg (Nat.not_lt.mpr high), if_neg (Nat.not_lt.mpr high)⟩

theorem orderKey_inj : orderKey x = orderKey y ↔ x = y := by
  have bound : x.toBits.toNat < 2 ^ 64 := x.toBits.toNat_lt
  have bound' : y.toBits.toNat < 2 ^ 64 := y.toBits.toNat_lt
  have key := orderKey_eq x
  have key' := orderKey_eq y
  rw [eq_iff_toBits]
  omega

/-- A number has a smaller key exactly when it goes before the other one. -/
theorem orderKey_lt_iff : orderKey x < orderKey y ↔ Below x y := by
  have bound : x.toBits.toNat < 2 ^ 64 := x.toBits.toNat_lt
  have bound' : y.toBits.toNat < 2 ^ 64 := y.toBits.toNat_lt
  have key := orderKey_eq x
  have key' := orderKey_eq y
  have negative : x = -0.0 ↔ x.toBits.toNat = 2 ^ 63 := eq_iff_toBits
  have positive : y = 0.0 ↔ y.toBits.toNat = 0 := eq_iff_toBits
  have word : ∀ z : Float, z = .nan ↔ z.toBits.toNat = 2047 * 2 ^ 52 + 2 ^ 51 := by
    intro z
    rw [eq_iff_toBits, toNat_toBits_nan]
  -- Words of numbers stand below the one word that is left for what is no number.
  have size : x ≠ .nan → x.toBits.toNat % 2 ^ 63 ≤ 2047 * 2 ^ 52 :=
    fun number => (canonical_of_ne_nan number).2.2
  have size' : y ≠ .nan → y.toBits.toNat % 2 ^ 63 ≤ 2047 * 2 ^ 52 :=
    fun number => (canonical_of_ne_nan number).2.2
  rw [ne_eq, word] at size size'
  rw [Below, negative, positive, lt_iff_placeOf_lt, ne_eq, ne_eq, word, word]
  omega

end Timetable.Demand
