/-!
# The teaching week

Courses meet on the six days from Monday to Saturday. A registrar writes a set of days as a pattern
of one-letter codes; letters that are no code are ignored. Main statement: a set of days is what its
canonical pattern reads back as (`DaySet.ofPattern_pattern`).
-/

namespace Timetable

/-- A teaching day. Sunday is none and has no code. -/
inductive Day where
  | mon | tue | wed | thu | fri | sat
  deriving DecidableEq, Repr

namespace Day

/-- The teaching days, Monday first. -/
def all : List Day := [mon, tue, wed, thu, fri, sat]

/-- The position of a day in the week, Monday being 0. -/
def index : Day → Nat
  | mon => 0 | tue => 1 | wed => 2 | thu => 3 | fri => 4 | sat => 5

/-- The registrar's letter for a day. -/
def code : Day → Char
  | mon => 'M' | tue => 'T' | wed => 'W' | thu => 'R' | fri => 'F' | sat => 'S'

/-- The name of a day in reports. -/
def name : Day → String
  | mon => "Mon" | tue => "Tue" | wed => "Wed" | thu => "Thu" | fri => "Fri" | sat => "Sat"

/-- The day that a letter stands for, in either case. -/
def ofCode? (c : Char) : Option Day :=
  match c.toUpper with
  | 'M' => some mon
  | 'T' => some tue
  | 'W' => some wed
  | 'R' => some thu
  | 'F' => some fri
  | 'S' => some sat
  | _ => none

theorem mem_all (d : Day) : d ∈ all := by cases d <;> decide

@[simp] theorem ofCode?_code (d : Day) : ofCode? d.code = some d := by cases d <;> rfl

end Day

/-- A set of teaching days. Bit 0 stands for Monday, bit 5 for Saturday. -/
structure DaySet where
  bits : BitVec 6
  deriving DecidableEq, Repr

namespace DaySet

/-- The set without days. -/
def empty : DaySet := ⟨0⟩

/-- Whether a day is in the set. -/
def has (s : DaySet) (d : Day) : Bool := s.bits.getLsbD d.index

/-- The set with `d` added. -/
def insert (s : DaySet) (d : Day) : DaySet := ⟨s.bits ||| (1#6 <<< d.index)⟩

/-- Whether the two sets share a day. -/
def meets (s t : DaySet) : Bool := s.bits &&& t.bits != 0

/-- The days of the set, Monday first. -/
def days (s : DaySet) : List Day := Day.all.filter s.has

/-- The set of the days that occur in a pattern; all other characters are ignored. -/
def ofPattern (pattern : String) : DaySet :=
  (pattern.toList.filterMap Day.ofCode?).foldl insert empty

/-- The canonical pattern of a set: its letters in the order of the week. -/
def pattern (s : DaySet) : String := String.ofList (s.days.map Day.code)

@[simp] theorem has_empty (d : Day) : empty.has d = false := by cases d <;> rfl

theorem has_insert (s : DaySet) (d e : Day) : (s.insert d).has e = (decide (e = d) || s.has e) := by
  unfold insert has
  rw [BitVec.getLsbD_or, Bool.or_comm]
  congr 1
  cases d <;> cases e <;> rfl

theorem has_foldl_insert (days : List Day) (s : DaySet) (e : Day) :
    (days.foldl insert s).has e = (days.contains e || s.has e) := by
  induction days generalizing s with
  | nil => simp
  | cons d rest ih =>
    rw [List.foldl_cons, ih, has_insert, List.contains_cons, Bool.or_left_comm, ← Bool.or_assoc]
    rfl

/-- Two sets with the same days are equal. -/
theorem ext_has {s t : DaySet} (same : ∀ d, s.has d = t.has d) : s = t := by
  obtain ⟨a⟩ := s
  obtain ⟨b⟩ := t
  congr 1
  apply BitVec.eq_of_getLsbD_eq
  intro i lt
  match i, lt with
  | 0, _ => exact same .mon
  | 1, _ => exact same .tue
  | 2, _ => exact same .wed
  | 3, _ => exact same .thu
  | 4, _ => exact same .fri
  | 5, _ => exact same .sat

theorem mem_days {s : DaySet} {d : Day} : d ∈ s.days ↔ s.has d = true := by
  simp [days, Day.mem_all]

/-- The canonical pattern reads back as the set that it was written from. -/
theorem ofPattern_pattern (s : DaySet) : ofPattern s.pattern = s := by
  apply ext_has
  intro d
  have codes : (s.days.map Day.code).filterMap Day.ofCode? = s.days := by
    induction s.days with
    | nil => rfl
    | cons d rest ih => rw [List.map_cons, List.filterMap_cons, Day.ofCode?_code, ih]
  rw [ofPattern, pattern, String.toList_ofList, codes, has_foldl_insert, has_empty, Bool.or_false,
    Bool.eq_iff_iff, List.contains_iff_mem, mem_days]

/-- Sets meet exactly when some day is in both. -/
theorem meets_iff {s t : DaySet} : s.meets t = true ↔ ∃ d, s.has d = true ∧ t.has d = true := by
  obtain ⟨a⟩ := s
  obtain ⟨b⟩ := t
  unfold meets has
  constructor
  · intro h
    apply Classical.byContradiction
    intro none
    refine bne_iff_ne.1 h (BitVec.eq_of_getLsbD_eq fun i lt => ?_)
    have each : ∀ d : Day, (a.getLsbD d.index && b.getLsbD d.index) = false := fun d => by
      cases ha : a.getLsbD d.index <;> cases hb : b.getLsbD d.index <;> simp
      exact none ⟨d, ha, hb⟩
    rw [BitVec.getLsbD_and]
    match i, lt with
    | 0, _ => exact each .mon
    | 1, _ => exact each .tue
    | 2, _ => exact each .wed
    | 3, _ => exact each .thu
    | 4, _ => exact each .fri
    | 5, _ => exact each .sat
  · rintro ⟨d, ha, hb⟩
    refine bne_iff_ne.2 fun zero => ?_
    have : (a &&& b).getLsbD d.index = false := by rw [zero]; cases d <;> rfl
    rw [BitVec.getLsbD_and, ha, hb] at this
    cases this

end DaySet

end Timetable
