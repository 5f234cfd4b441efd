import Timetable.Proofs.Meeting.Reading

/-!
# Written meetings read back

A minute is written in the notation of clock times (`Clock.shows_write`), so the written bounds of a
meeting are a time range, and its canonical pattern gives back its days. The one window that does
not come back is one that ends at midnight, which is written like the first minute of the day
(`Meeting.read_canonical_iff`); no meeting that was read ends there. Since no day letter is a space,
the written form of a meeting can be taken apart again (`Meeting.ofWritten?_write`), so it tells
meetings apart that were read. Main statement: `Meeting.written_reads_back`.
-/

namespace Timetable

/-! ## Clock times -/

namespace Clock

theorem writes_digitChar {d : Nat} (small : d < 10) : Writes d.digitChar d :=
  ⟨small, Nat.toNat_digitChar_of_lt_ten small⟩

theorem toList_toString_of_lt_ten {n : Nat} (small : n < 10) :
    (toString n).toList = [n.digitChar] := by
  rw [Nat.toString_eq_ofList_toDigits, String.toList_ofList, Nat.toDigits_of_lt_base small]

theorem toList_toString_of_lt_hundred {n : Nat} (large : 10 ≤ n) (small : n < 100) :
    (toString n).toList = [(n / 10).digitChar, (n % 10).digitChar] := by
  have tens : n / 10 < 10 := by omega
  rw [Nat.toString_eq_ofList_toDigits, String.toList_ofList,
    Nat.toDigits_of_base_le (by decide) large, Nat.toDigits_of_lt_base tens]
  rfl

/-- A number below a hundred is what its two digits write. -/
theorem writes_two {n : Nat} (small : n < 100) :
    Writes (n / 10).digitChar (n / 10) ∧ Writes (n % 10).digitChar (n % 10) ∧
      10 * (n / 10) + n % 10 = n :=
  ⟨writes_digitChar (by omega), writes_digitChar (by omega), by omega⟩

/-- A number below a hundred is written as an hour is. -/
theorem hourText_toString {n : Nat} (small : n < 100) : HourText (toString n).toList n := by
  by_cases one : n < 10
  · rw [toList_toString_of_lt_ten one]
    exact .one (writes_digitChar one)
  · obtain ⟨tens, ones, sum⟩ := writes_two small
    have pair := HourText.two tens ones
    rw [toList_toString_of_lt_hundred (by omega) small]
    rwa [sum] at pair

/-- A number below ten is filled up with a zero. -/
theorem toList_twoDigits {n : Nat} (small : n < 100) :
    (twoDigits n).toList = [(n / 10).digitChar, (n % 10).digitChar] := by
  unfold twoDigits
  split
  · next one =>
    have zero : n / 10 = 0 := by omega
    have same : n % 10 = n := by omega
    rw [String.toList_append, toList_toString_of_lt_ten one, zero, same]
    rfl
  · next two => exact toList_toString_of_lt_hundred (by omega) small

/-- Behind a colon, a number below a hundred is written as minutes are. -/
theorem minuteText_twoDigits {n : Nat} (small : n < 100) :
    MinuteText (':' :: (twoDigits n).toList) n := by
  obtain ⟨tens, ones, sum⟩ := writes_two small
  have pair := MinuteText.digits tens ones
  rw [toList_twoDigits small]
  rwa [sum] at pair

theorem allBlank_nil : AllBlank [] := fun _ among => nomatch among

theorem allBlank_space : AllBlank [' '] := by
  intro c among
  rw [List.mem_singleton.mp among]
  decide

/-- Blanks around a clock time leave it as it is. -/
theorem Shows.padded {s before after : List Char} {minute : Nat} (shown : Shows s minute)
    (leading : AllBlank before) (trailing : AllBlank after) :
    Shows (before ++ s ++ after) minute := by
  rcases shown with
    @⟨before', hour, minutes, between, half, after', h, m, x, blank, hours, colon, apart, letters,
      blank', twelve, sixty⟩
  have front : AllBlank (before ++ before') := by
    intro c among
    rcases List.mem_append.mp among with outer | inner
    · exact leading c outer
    · exact blank c inner
  have back : AllBlank (after' ++ after) := by
    intro c among
    rcases List.mem_append.mp among with inner | outer
    · exact blank' c inner
    · exact trailing c outer
  have whole := Shows.mk front hours colon apart letters back twelve sixty
  simpa only [List.append_assoc] using whole

/-- The letters behind the minutes tell the half of the day of an hour. -/
theorem exists_halfText (hour : Nat) (within : hour < 24) :
    ∃ letters x, (if hour < 12 then " AM" else " PM").toList = ' ' :: letters ∧ HalfText letters x ∧
      (hour % 12 + if x = .evening then 12 else 0) = hour := by
  by_cases morning : hour < 12
  · refine ⟨['A', 'M'], .morning, ?_, .morning (Or.inl rfl) (Or.inl rfl), ?_⟩
    · rw [if_pos morning]
      rfl
    · rw [if_neg (by decide)]
      omega
  · refine ⟨['P', 'M'], .evening, ?_, .evening (Or.inl rfl) (Or.inl rfl), ?_⟩
    · rw [if_neg morning]
      rfl
    · rw [if_pos rfl]
      omega

/-- The written form of a minute shows it. Minutes past the end of a day start over. -/
theorem shows_write (minute : Nat) : Shows (write minute).toList (minute % minutesPerDay) := by
  have within : minute / 60 % 24 < 24 := Nat.mod_lt _ (by decide)
  have sixty : minute % 60 < 60 := Nat.mod_lt _ (by decide)
  have total : minute / 60 % 24 * 60 + minute % 60 = minute % minutesPerDay := by
    unfold minutesPerDay
    omega
  obtain ⟨letters, x, half, written, hours⟩ := exists_halfText _ within
  unfold write
  simp only [String.toList_append, half]
  rw [← total]
  generalize minute / 60 % 24 = hour at *
  generalize face : (if hour % 12 = 0 then 12 else hour % 12) = shown
  have twelve : (1 ≤ shown ∧ shown ≤ 12) ∧ shown % 12 = hour % 12 := by
    split at face <;> omega
  have shows := Shows.mk allBlank_nil (hourText_toString (by omega))
    (minuteText_twoDigits (by omega)) allBlank_space written allBlank_nil twelve.1 sixty
  rw [twelve.2, hours] at shows
  simpa using shows

end Clock

/-! ## Time ranges -/

namespace Meeting

/-- The written bounds of a window are a time range. -/
theorem spans_write (start stop : Nat) :
    Spans (Clock.write start ++ " - " ++ Clock.write stop) (start % Clock.minutesPerDay)
      (stop % Clock.minutesPerDay) := by
  have left := (Clock.shows_write start).padded Clock.allBlank_nil Clock.allBlank_space
  have right := (Clock.shows_write stop).padded Clock.allBlank_space Clock.allBlank_nil
  refine ⟨_, _, ?_, left.not_mem_hyphen, right.not_mem_hyphen, left, right⟩
  simp

/-- A meeting comes back from its canonical pattern and its written bounds when it ends before
midnight, and only then. -/
theorem read_canonical_iff {m : Meeting} :
    read m.days.pattern (Clock.write m.start ++ " - " ++ Clock.write m.stop) = some m ↔
      m.stop < Clock.minutesPerDay := by
  rw [read_eq_some_iff, DaySet.ofPattern_pattern]
  constructor
  · intro back
    exact back.1.stop_lt
  · intro within
    have spans := spans_write m.start m.stop
    have earlier : m.start < Clock.minutesPerDay := Nat.lt_trans m.start_lt_stop within
    rw [Nat.mod_eq_of_lt earlier, Nat.mod_eq_of_lt within] at spans
    exact ⟨spans, rfl⟩

/-! ## The written form -/

/-- The meeting that a written form is of: its days stand in front of the first space, and its
window behind it. -/
def ofWritten? (text : String) : Option Meeting :=
  let s := text.toList
  read (String.ofList (s.takeWhile (· != ' '))) (String.ofList ((s.dropWhile (· != ' ')).drop 1))

/-- No day letter is a space. -/
theorem ne_space_of_mem_pattern {days : DaySet} {c : Char} (among : c ∈ days.pattern.toList) :
    (c != ' ') = true := by
  rw [DaySet.pattern, String.toList_ofList, List.mem_map] at among
  obtain ⟨d, -, rfl⟩ := among
  cases d <;> decide

/-- The written form is taken apart at its first space. -/
theorem ofWritten?_write (m : Meeting) :
    ofWritten? m.write =
      read m.days.pattern (Clock.write m.start ++ " - " ++ Clock.write m.stop) := by
  have whole : m.write.toList =
      m.days.pattern.toList ++
        ' ' :: (Clock.write m.start ++ " - " ++ Clock.write m.stop).toList := by
    simp [write]
  have plain : ∀ c ∈ m.days.pattern.toList, (c != ' ') = true := fun c => ne_space_of_mem_pattern
  generalize Clock.write m.start ++ " - " ++ Clock.write m.stop = times at whole ⊢
  unfold ofWritten?
  simp only [whole, List.takeWhile_append_of_pos plain, List.dropWhile_append_of_pos plain]
  simp

/-- A meeting that was read comes back from its canonical form, and the text that shows it tells it
apart from every other one that was read. -/
theorem written_reads_back (days times : String) (m : Meeting) (read_m : read days times = some m) :
    read m.days.pattern (Clock.write m.start ++ " - " ++ Clock.write m.stop) = some m ∧
      ofWritten? m.write = some m ∧
      ∀ days' times' n, read days' times' = some n → (m.write = n.write ↔ m = n) := by
  have back {days times : String} {m : Meeting} (read_m : read days times = some m) :
      ofWritten? m.write = some m := by
    rw [ofWritten?_write, read_canonical_iff]
    exact (read_eq_some_iff.mp read_m).1.stop_lt
  refine ⟨?_, back read_m, ?_⟩
  · rw [← ofWritten?_write]
    exact back read_m
  · intro days' times' n read_n
    constructor
    · intro same
      have both := (back read_m).symm.trans (same ▸ back read_n)
      exact Option.some.inj both
    · exact congrArg write

/-- Noon and the first minutes of a day come back, too, and so does a meeting without any day. -/
theorem written_reads_back_noon :
    ∃ m n, (read "fxM" "12:05am-12 PM" = some m ∧ read "ONLINE" " 12 pM - 01:00PM" = some n) ∧
      (m.write = "MF 12:05 AM - 12:00 PM" ∧ n.write = " 12:00 PM - 1:00 PM") ∧
      read "MF" "12:05 AM - 12:00 PM" = some m ∧ ofWritten? n.write = some n ∧ m.write ≠ n.write := by
  have read_m : read "fxM" "12:05am-12 PM" =
      some ⟨.ofPattern "fxM", 5, 720, by decide, by decide⟩ := by decide +kernel
  have read_n : read "ONLINE" " 12 pM - 01:00PM" =
      some ⟨.ofPattern "ONLINE", 720, 780, by decide, by decide⟩ := by decide +kernel
  obtain ⟨back, -, apart⟩ := written_reads_back _ _ _ read_m
  obtain ⟨-, form, -⟩ := written_reads_back _ _ _ read_n
  refine ⟨_, _, ⟨read_m, read_n⟩, ⟨by decide +kernel, by decide +kernel⟩, ?_, form, ?_⟩
  · exact back
  · intro same
    have equal := (apart _ _ _ read_n).mp same
    revert equal
    decide

end Meeting

end Timetable
