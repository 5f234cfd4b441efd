import Timetable.Meeting
import Timetable.Proofs.Clock.Reading

/-!
# The notation of meetings

A time range is two clock times with the one hyphen of the text between them. A meeting is read
exactly when its time range is in this notation and does not end before it has begun; its window
then has the bounds that the two clocks show, and its days are those with a letter in the pattern
(`Meeting.read_exact`).
-/

namespace Timetable

/-! ## Day patterns -/

/-- A day is read off its letter, capital or small. -/
theorem Day.ofCode?_eq_some_iff {c : Char} {d : Day} :
    ofCode? c = some d ↔ c = d.code ∨ c = d.code.toLower := by
  have raised : c.toUpper = d.code ↔ c = d.code ∨ c = d.code.toLower :=
    Text.toUpper_eq_iff d.code d.code.toLower (by cases d <;> decide) (by cases d <;> decide)
  rw [← raised]
  unfold ofCode?
  constructor
  · intro read
    split at read
    all_goals cases read
    all_goals assumption
  · intro letter
    rw [letter]
    cases d <;> rfl

/-- The days of a pattern are those whose letter occurs in it. -/
theorem DaySet.has_ofPattern (pattern : String) (d : Day) :
    (ofPattern pattern).has d = true ↔ ∃ c ∈ pattern.toList, c = d.code ∨ c = d.code.toLower := by
  rw [ofPattern, has_foldl_insert, has_empty, Bool.or_false, List.contains_iff_mem,
    List.mem_filterMap]
  simp only [Day.ofCode?_eq_some_iff]

/-! ## Time ranges -/

/-- No part of a clock time is written with a hyphen. -/
theorem Clock.Shows.not_mem_hyphen {s : List Char} {minute : Nat} (shown : Shows s minute) :
    '-' ∉ s := by
  have digit : ∀ {c : Char} {d : Nat}, Writes c d → '-' ≠ c := by
    rintro c d ⟨-, same⟩ rfl
    have codes : '-'.toNat = 45 ∧ '0'.toNat = 48 := ⟨rfl, rfl⟩
    omega
  have blanks : ∀ {text : List Char}, AllBlank text → '-' ∉ text := by
    intro text blank among
    have hyphen : Text.isBlank '-' = false := by decide
    exact Bool.false_ne_true (hyphen.symm.trans (blank _ among))
  rcases shown with
    @⟨before, hour, minutes, between, half, after, _, _, _, leading, hours, colon, apart, letters,
      trailing, _, _⟩
  have hourPlain : '-' ∉ hour := by
    rcases hours with first | ⟨first, second⟩
    · simp [digit first]
    · simp [digit first, digit second]
  have minutesPlain : '-' ∉ minutes := by
    rcases colon with _ | ⟨first, second⟩
    · simp
    · simp [digit first, digit second]
  have halfPlain : '-' ∉ half := by
    rcases letters with ⟨rfl | rfl, rfl | rfl⟩ | ⟨rfl | rfl, rfl | rfl⟩ <;> decide
  simp only [List.mem_append, not_or]
  exact ⟨⟨⟨⟨⟨blanks leading, hourPlain⟩, minutesPlain⟩, blanks apart⟩, halfPlain⟩, blanks trailing⟩

namespace Meeting

/-- The text is a time range between these minutes of the day. -/
def Spans (times : String) (start stop : Nat) : Prop :=
  ∃ left right, times.toList = left ++ '-' :: right ∧ '-' ∉ left ∧ '-' ∉ right ∧
    Clock.Shows left start ∧ Clock.Shows right stop

theorem spans_of_readRange {times : String} {start stop : Nat}
    (read_times : readRange times = some (start, stop)) : Spans times start stop := by
  simp only [readRange] at read_times
  split at read_times
  · cases read_times
  · next c right behind =>
    simp only [Option.bind_eq_bind, Option.bind_eq_some_iff] at read_times
    obtain ⟨start', first, stop', second, bounds⟩ := read_times
    obtain ⟨rfl, rfl⟩ := Prod.mk.inj (Option.some.inj bounds)
    obtain rfl : c = '-' := by
      have nonempty : times.toList.dropWhile (· != '-') ≠ [] := by
        rw [behind]
        exact List.cons_ne_nil c right
      simpa [behind] using List.head_dropWhile_not (· != '-') nonempty
    have whole : times.toList = times.toList.takeWhile (· != '-') ++ '-' :: right := by
      rw [← behind, List.takeWhile_append_dropWhile]
    rw [Clock.read_eq_some_iff] at first second
    exact ⟨_, right, whole, first.not_mem_hyphen, second.not_mem_hyphen, first, second⟩

theorem readRange_of_spans {times : String} {start stop : Nat} (spans : Spans times start stop) :
    readRange times = some (start, stop) := by
  obtain ⟨left, right, whole, plain, -, first, second⟩ := spans
  have before : ∀ c ∈ left, (c != '-') = true := by
    rintro c among
    refine bne_iff_ne.mpr ?_
    rintro rfl
    exact plain among
  have leading : times.toList.takeWhile (· != '-') = left := by
    rw [whole, List.takeWhile_append_of_pos before]
    simp
  have behind : times.toList.dropWhile (· != '-') = '-' :: right := by
    rw [whole, List.dropWhile_append_of_pos before]
    simp
  rw [← Clock.read_eq_some_iff] at first second
  unfold readRange
  simp only [behind, leading, first, second, Option.bind_eq_bind, Option.bind_some]

theorem readRange_eq_some_iff {times : String} {start stop : Nat} :
    readRange times = some (start, stop) ↔ Spans times start stop :=
  ⟨spans_of_readRange, readRange_of_spans⟩

theorem Spans.unique {times : String} {start stop start' stop' : Nat}
    (spans : Spans times start stop) (spans' : Spans times start' stop') :
    start = start' ∧ stop = stop' := by
  have same := (readRange_of_spans spans).symm.trans (readRange_of_spans spans')
  exact Prod.mk.inj (Option.some.inj same)

theorem Spans.stop_lt {times : String} {start stop : Nat} (spans : Spans times start stop) :
    stop < Clock.minutesPerDay := by
  obtain ⟨_, _, _, _, _, _, second⟩ := spans
  exact second.lt

/-- What a meeting is read from, and what it then is. -/
theorem read_eq_some_iff {days times : String} {m : Meeting} :
    read days times = some m ↔ Spans times m.start m.stop ∧ m.days = .ofPattern days := by
  unfold read
  simp only [Option.bind_eq_bind, Option.bind_eq_some_iff]
  constructor
  · rintro ⟨⟨start, stop⟩, range, window⟩
    unfold of? at window
    split at window
    · cases window
      exact ⟨readRange_eq_some_iff.mp range, rfl⟩
    · cases window
  · rintro ⟨spans, same⟩
    refine ⟨(m.start, m.stop), readRange_eq_some_iff.mpr spans, ?_⟩
    unfold of?
    rw [dif_pos ⟨m.start_lt_stop, m.stop_le⟩, ← same]

/-- A meeting is read exactly from a time range that does not end before it has begun. It has the
bounds of the range, ends within the day, and takes place on the days whose letter occurs in the
pattern. -/
theorem read_exact (days times : String) :
    ((read days times).isSome = true ↔ ∃ start stop, Spans times start stop ∧ start < stop) ∧
      ∀ m, read days times = some m →
        (∀ start stop, Spans times start stop → m.start = start ∧ m.stop = stop) ∧
        m.start < m.stop ∧ m.stop < 1440 ∧
        ∀ d, m.days.has d = true ↔ ∃ c ∈ days.toList, c = d.code ∨ c = d.code.toLower := by
  refine ⟨?_, ?_⟩
  · rw [Option.isSome_iff_exists]
    constructor
    · rintro ⟨m, read_m⟩
      exact ⟨m.start, m.stop, (read_eq_some_iff.mp read_m).1, m.start_lt_stop⟩
    · rintro ⟨start, stop, spans, lt⟩
      have within : stop < Clock.minutesPerDay := spans.stop_lt
      exact ⟨⟨.ofPattern days, start, stop, lt, Nat.le_of_lt within⟩,
        read_eq_some_iff.mpr ⟨spans, rfl⟩⟩
  · intro m read_m
    obtain ⟨spans, same⟩ := read_eq_some_iff.mp read_m
    refine ⟨fun start stop spans' => spans.unique spans', m.start_lt_stop, spans.stop_lt, ?_⟩
    rw [same]
    exact DaySet.has_ofPattern days

/-- Small letters, wide blanks and an hour without minutes are in the notation, too. -/
theorem read_exact_irregular :
    ∃ m, read "mWxr" "\u00a012am-1:05\u2003Pm\n" = some m ∧ (m.start = 0 ∧ m.stop = 785) ∧
      m.stop < 1440 ∧ m.days.has .thu = true := by
  have read_m : read "mWxr" "\u00a012am-1:05\u2003Pm\n" =
      some ⟨.ofPattern "mWxr", 0, 785, by decide, by decide⟩ := by decide +kernel
  obtain ⟨-, -, within, days⟩ := (read_exact _ _).2 _ read_m
  exact ⟨_, read_m, ⟨rfl, rfl⟩, within, (days .thu).mpr ⟨'r', by decide, Or.inr rfl⟩⟩

end Meeting

end Timetable
