import Timetable.Section

/-!
# Demand for sections

How full a section is: the ratio of demand to capacity, the band that the ratio falls into, the
probability of obtaining a seat, and the probability of a whole schedule. A section without a bound
is under no pressure. The estimates are stated over any numbers with division, order and
multiplication; the program reads them on binary floating-point numbers.
-/

namespace Timetable

/-- Natural numbers as binary floating-point numbers. -/
instance natCastFloat : NatCast Float := ⟨Float.ofNat⟩

/-- How contended a section is. -/
inductive DemandBand where
  | low | moderate | high | overCapacity
  deriving DecidableEq, Repr

namespace DemandBand

/-- The name of a band in answers. -/
def name : DemandBand → String
  | low => "low" | moderate => "moderate" | high => "high" | overCapacity => "overCapacity"

/-- The wording of a band. -/
def label : DemandBand → String
  | low => "low demand"
  | moderate => "moderate demand"
  | high => "high demand"
  | overCapacity => "over capacity"

/-- The colour of a band's badge. -/
def color : DemandBand → String
  | low => "green" | moderate => "yellow" | high => "orange" | overCapacity => "red"

/-- The band of a ratio. Lower bounds are inclusive; a ratio that compares with nothing is low. -/
def ofRatio {α : Type} [LE α] [DecidableLE α] [OfScientific α] (ratio : α) : DemandBand :=
  if (1.0 : α) ≤ ratio then .overCapacity
  else if (0.75 : α) ≤ ratio then .high
  else if (0.5 : α) ≤ ratio then .moderate
  else .low

end DemandBand

namespace Demand

section

variable {α : Type} [NatCast α] [Div α] [Mul α] [LT α] [DecidableLT α] [LE α] [DecidableLE α]
  [OfScientific α]

/-- The value, moved to the nearer bound when it lies outside of `[0, 1]`. -/
def clampUnit (x : α) : α :=
  if x < (0.0 : α) then 0.0 else if (1.0 : α) < x then 1.0 else x

/-- Demand divided by capacity; zero without a bound. It may exceed one. -/
def ratio (s : Section) : α :=
  match s.capacity with
  | some c => if 0 < c then (s.demand : α) / (c : α) else 0.0
  | none => 0.0

/-- The band of a section. -/
def band (α : Type) [NatCast α] [Div α] [LE α] [DecidableLE α] [OfScientific α] (s : Section) :
    DemandBand :=
  DemandBand.ofRatio (ratio s : α)

/-- The part of the capacity that is not yet claimed; one without a bound. -/
def probability (s : Section) : α :=
  match s.capacity with
  | some c => if 0 < c then clampUnit (((c - s.demand : Nat) : α) / (c : α)) else 1.0
  | none => 1.0

/-- The product of the probabilities, from one and left to right, as if the sections were
independent. -/
def scheduleProbability (sections : List Section) : α :=
  (sections.map probability).foldl (· * ·) 1.0

end

/-- A probability as a whole percentage. -/
def percent (p : Float) : String :=
  toString ((clampUnit p * 100.0).round.toUInt32.toNat) ++ "%"

/-- A key that orders floating-point numbers totally, as their bit patterns do: larger numbers have
larger keys. -/
def orderKey (x : Float) : Nat :=
  let bits := x.toBits.toNat
  let sign := 9223372036854775808
  if bits < sign then sign + bits else 2 * sign - 1 - bits

end Demand

end Timetable
