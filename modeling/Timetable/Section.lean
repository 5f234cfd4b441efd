import Timetable.Meeting
import Timetable.Record

/-!
# Sections

A section is one offering of a course. Its kind, the type key, is its code without digits and blanks
(`typeKey_cases`): of the sections of one kind a course needs one. Counters are natural numbers, and
a missing or non-positive capacity means that there is no bound.
-/

namespace Timetable

/-- The type key of a code without any letter. -/
def defaultTypeKey : String := "SECTION"

/-- The type key of a section code: what is left without ASCII digits and blanks. -/
def typeKey (code : String) : String :=
  match code.toList.filter fun c => (Text.digit? c).isNone && !Text.isBlank c with
  | [] => defaultTypeKey
  | letters => String.ofList letters

/-- What a section code loses on the way to its type key: ASCII digits and blanks. -/
def Stripped (c : Char) : Prop := c.isDigit = true ∨ Text.isBlank c = true

instance : DecidablePred Stripped := fun _ => inferInstanceAs (Decidable (_ ∨ _))

theorem isNone_digit? (c : Char) : (Text.digit? c).isNone = !c.isDigit := by
  have digit : c.isDigit = decide ('0' ≤ c ∧ c ≤ '9') := by
    rw [Char.isDigit, Bool.decide_and]
    rfl
  rw [Text.digit?, digit]
  split
  next among => rw [decide_eq_true among]; rfl
  next other => rw [decide_eq_false other]; rfl

/-- The type key is what is not stripped of the code, in its order, unless nothing is left. -/
theorem typeKey_cases (code : String) :
    (∀ c ∈ code.toList, Stripped c) ∧ typeKey code = defaultTypeKey ∨
      (∃ c ∈ code.toList, ¬Stripped c) ∧
        (typeKey code).toList = code.toList.filter fun c => ¬Stripped c := by
  have left : (code.toList.filter fun c => (Text.digit? c).isNone && !Text.isBlank c) =
      code.toList.filter fun c => ¬Stripped c := by
    refine List.filter_congr fun c _ => ?_
    rw [isNone_digit?, Bool.eq_iff_iff]
    simp only [Stripped, Bool.and_eq_true, Bool.not_eq_true', decide_eq_true_eq, not_or,
      Bool.not_eq_true]
  rw [typeKey, left]
  split
  next empty =>
    refine .inl ⟨fun c member => ?_, rfl⟩
    simpa only [decide_eq_true_eq, Decidable.not_not] using List.filter_eq_nil_iff.mp empty c member
  next some =>
    obtain ⟨c, kept⟩ := List.exists_mem_of_ne_nil _ some
    obtain ⟨member, unstripped⟩ := List.mem_filter.mp kept
    exact .inr ⟨⟨c, member, of_decide_eq_true unstripped⟩, String.toList_ofList⟩

/-- The default is the type key of a code that is stripped whole, and of one that spells it. -/
theorem typeKey_eq_default_iff {code : String} :
    typeKey code = defaultTypeKey ↔
      (∀ c ∈ code.toList, Stripped c) ∨
        code.toList.filter (fun c => ¬Stripped c) = defaultTypeKey.toList := by
  rcases typeKey_cases code with ⟨whole, same⟩ | ⟨⟨c, member, unstripped⟩, letters⟩
  · exact iff_of_true same (.inl whole)
  · have some : ¬∀ c ∈ code.toList, Stripped c := fun whole => unstripped (whole c member)
    rw [or_iff_right some, ← letters, String.toList_inj]

example : typeKey "L1" = "L" ∧ typeKey "L 2" = "L" ∧ typeKey "001" = defaultTypeKey := by decide

/-- One meeting offering of a course. -/
structure Section where
  id : Int
  courseId : Int
  code : String
  typeKey : String
  days : String
  times : String
  /-- None when the section has no place on the weekly grid. -/
  meeting : Option Meeting
  /-- None when there is no bound. -/
  capacity : Option Nat
  selectedCount : Nat
  enrolled : Nat
  faculty : Option String
  room : Option String
  selected : Bool
  deriving DecidableEq

namespace Section

/-- A counter as a natural number: missing and negative ones count as zero. -/
def counter : Option Int → Nat
  | none => 0
  | some n => n.toNat

/-- A capacity as a bound: only a positive one is any. -/
def bound : Option Int → Option Nat
  | none => none
  | some n => if 0 < n then some n.toNat else none

/-- The section that a record describes, as a part of the course with id `courseId`. -/
def ofRecord (courseId : Int) (r : SectionRecord) : Section where
  id := r.id
  courseId := courseId
  code := r.code
  typeKey := Timetable.typeKey r.code
  days := r.days
  times := r.times
  meeting := Meeting.read r.days r.times
  capacity := bound r.capacity
  selectedCount := counter r.selectedCount
  enrolled := counter r.enrolled
  faculty := r.faculty
  room := r.room
  selected := r.selected

/-- The record of a section. Both counters are always written. -/
def toRecord (s : Section) : SectionRecord where
  id := s.id
  courseId := s.courseId
  code := s.code
  days := s.days
  times := s.times
  capacity := s.capacity.map Int.ofNat
  selectedCount := some s.selectedCount
  enrolled := some s.enrolled
  faculty := s.faculty
  room := s.room
  selected := s.selected

/-- Whether the section has a place on the weekly grid. -/
def isPlaceable (s : Section) : Bool := s.meeting.isSome

/-- The larger of the two signals: current selections and last enrolment. -/
def demand (s : Section) : Nat := max s.selectedCount s.enrolled

end Section

end Timetable
