import Timetable.Json.Decode

/-!
# Where the mark of an excerpt stands

A column counts the bytes of a line, and an excerpt cuts the line and places its mark by characters.
The excerpt is always a piece of the line with a mark below (`Window.shows_excerpt`), and never
reaches outside of the line (`Window.inside_windowAt`). The mark is under the character that holds
the byte that the column counts when every character in front of it takes one byte and the column
counts its first one (`HoldsColumn.pointsAt_iff`); behind wider characters it stands too far to the
right, and may leave the character, or the line, behind. Main statement: `excerpt_exact`.
-/

namespace Timetable.Json

/-! ## Bytes of a line -/

theorem length_le_byteLength (s : List Char) : s.length ≤ byteLength s := by
  induction s with
  | nil => exact Nat.le_refl 0
  | cons c s ih =>
    have positive := c.utf8Size_pos
    rw [List.length_cons, byteLength]
    omega

/-- A text has as many bytes as characters when each of them takes one byte. -/
theorem byteLength_eq_length_iff {s : List Char} :
    byteLength s = s.length ↔ ∀ c ∈ s, c.utf8Size = 1 := by
  induction s with
  | nil => simp [byteLength]
  | cons c s ih =>
    have positive := c.utf8Size_pos
    have least := length_le_byteLength s
    rw [byteLength, List.length_cons, List.forall_mem_cons, ← ih]
    omega

/-- The byte that a column counts, from one on, is held by the character at this position. -/
structure HoldsColumn (line : List Char) (column position : Nat) : Prop where
  within : position < line.length
  behind : byteLength (line.take position) < column
  upTo : column ≤ byteLength (line.take (position + 1))

/-- A column inside of a line is held by some character. -/
theorem exists_holdsColumn {line : List Char} {column : Nat} (positive : 0 < column)
    (inside : column ≤ byteLength line) : ∃ position, HoldsColumn line column position := by
  induction line generalizing column with
  | nil =>
    rw [byteLength] at inside
    omega
  | cons c line ih =>
    rw [byteLength] at inside
    by_cases here : column ≤ c.utf8Size
    · exact ⟨0, by simp, by simpa [byteLength] using positive, by simpa [byteLength] using here⟩
    · obtain ⟨position, holds⟩ := @ih (column - c.utf8Size) (by omega) (by omega)
      obtain ⟨within, behind, upTo⟩ := holds
      refine ⟨position + 1, by simpa using within, ?_, ?_⟩
      · rw [List.take_succ_cons, byteLength]
        omega
      · rw [List.take_succ_cons, byteLength]
        omega

/-! ## Windows -/

namespace Window

/-- The window reaches neither outside of a line of this length nor past its mark on the left. -/
structure Inside (w : Window) (length : Nat) : Prop where
  start_le_stop : w.start ≤ w.stop
  stop_le : w.stop ≤ length
  start_le_mark : w.start ≤ w.mark

/-- The text has the characters of the window between dots, and in the row below a mark where a
character at the position of the mark stands. -/
def Shows (w : Window) (line : List Char) (text : String) : Prop :=
  ∃ before shown behind, line = before ++ shown ++ behind ∧
    (before.length = w.start ∧ shown.length = w.stop - w.start) ∧
    text.toList = "...".toList ++ shown ++ "...\n".toList ++
      List.replicate ("...".length + (w.mark - w.start)) ' ' ++ ['^']

/-- The character at this position is in the window. -/
def Contains (w : Window) (position : Nat) : Prop := w.start ≤ position ∧ position < w.stop

/-- The character at this position is in the window, and the mark stands under it. -/
def PointsAt (w : Window) (position : Nat) : Prop := w.Contains position ∧ w.mark = position

theorem inside_windowAt (length column width : Nat) :
    (windowAt length column width).Inside length := by
  constructor <;> simp only [windowAt] <;> omega

/-- An excerpt is written from its window alone. -/
theorem excerpt_eq {body : String} {line : Nat} (nonempty : lineAt body line ≠ [])
    {column width : Nat} {w : Window}
    (window : windowAt (lineAt body line).length column width = w) :
    excerpt body line column width =
      "..." ++ String.ofList (((lineAt body line).take w.stop).drop w.start) ++ "...\n   " ++
        String.ofList (List.replicate (w.mark - w.start) ' ') ++ "^" := by
  obtain ⟨c, rest, text⟩ := List.exists_cons_of_ne_nil nonempty
  subst window
  unfold excerpt
  rw [text]

theorem shows_excerpt {body : String} {line : Nat} (nonempty : lineAt body line ≠ [])
    (column width : Nat) :
    (windowAt (lineAt body line).length column width).Shows (lineAt body line)
      (excerpt body line column width) := by
  rw [excerpt_eq nonempty rfl]
  generalize lineAt body line = s
  have inside := inside_windowAt s.length column width
  generalize windowAt s.length column width = w at inside ⊢
  have start : (s.take w.stop).take w.start = s.take w.start := by
    rw [List.take_take, Nat.min_eq_left inside.start_le_stop]
  refine ⟨s.take w.start, (s.take w.stop).drop w.start, s.drop w.stop, ?_, ⟨?_, ?_⟩, ?_⟩
  · rw [← start, List.take_append_drop, List.take_append_drop]
  · rw [List.length_take, Nat.min_eq_left (Nat.le_trans inside.start_le_stop inside.stop_le)]
  · rw [List.length_drop, List.length_take, Nat.min_eq_left inside.stop_le]
  · have dots : "...".length + (w.mark - w.start) = w.mark - w.start + 3 := Nat.add_comm _ _
    simp [dots, List.replicate_succ]

/-- The window of an even width has at most so many characters. -/
theorem stop_sub_start_le {width : Nat} (even : width % 2 = 0) (length column : Nat) :
    (windowAt length column width).stop - (windowAt length column width).start ≤ width := by
  simp only [windowAt]
  omega

end Window

namespace HoldsColumn

variable {line : List Char} {column position width : Nat}

/-- A character has no more characters in front of it than there are bytes. -/
theorem lt_column (holds : HoldsColumn line column position) : position < column := by
  have least := length_le_byteLength (line.take position)
  have within := holds.within
  have behind := holds.behind
  rw [List.length_take] at least
  omega

/-- The character is in the window when the bytes lead at most half a width too far to the right. -/
theorem contains_iff (holds : HoldsColumn line column position) (positive : 0 < width)
    (even : width % 2 = 0) :
    (windowAt line.length column width).Contains position ↔
      min (column - 1) line.length ≤ position + width / 2 := by
  have within := holds.within
  have before := holds.lt_column
  simp only [Window.Contains, windowAt]
  omega

/-- A column counts the characters of a line, too, when each of them up to its place takes one
byte. -/
theorem eq_succ_iff (holds : HoldsColumn line column position) :
    column = position + 1 ↔ ∀ c ∈ line.take (column - 1), c.utf8Size = 1 := by
  have before := holds.lt_column
  have within := holds.within
  constructor
  · intro same
    have behind := holds.behind
    have least := length_le_byteLength (line.take position)
    rw [← byteLength_eq_length_iff, same, Nat.add_sub_cancel]
    rw [List.length_take] at least ⊢
    omega
  · intro single
    by_cases far : column ≤ position + 1
    · omega
    · have part : line.take (position + 1) ⊆ line.take (column - 1) :=
        List.take_subset_take_left line (by omega)
      have count : byteLength (line.take (position + 1)) = (line.take (position + 1)).length :=
        byteLength_eq_length_iff.mpr fun c among => single c (part among)
      have upTo := holds.upTo
      rw [count, List.length_take] at upTo
      omega

/-- The mark stands under the character exactly when the line has one byte for each character up to
the place that the column counts. -/
theorem pointsAt_iff (holds : HoldsColumn line column position) (positive : 0 < width)
    (even : width % 2 = 0) :
    (windowAt line.length column width).PointsAt position ↔
      ∀ c ∈ line.take (column - 1), c.utf8Size = 1 := by
  have within := holds.within
  have before := holds.lt_column
  rw [← holds.eq_succ_iff, Window.PointsAt, holds.contains_iff positive even]
  simp only [windowAt]
  omega

end HoldsColumn

/-! ## Excerpts -/

/-- The window of a line that its excerpt shows. -/
def shownWindow (body : String) (line column width : Nat) : Window :=
  windowAt (lineAt body line).length column width

/-- What an excerpt shows of a line when the column is one of the line: a piece with the mark below,
of a limited number of characters. Whether the character that holds the byte of the column is in it,
and has the mark under it, depends on the wider characters in front of it. -/
structure ShowsColumn (body : String) (line column width : Nat) (w : Window) : Prop where
  shows : w.Shows (lineAt body line) (excerpt body line column width)
  size : w.stop - w.start ≤ width
  located : ∃ position, HoldsColumn (lineAt body line) column position ∧
    (w.Contains position ↔
      min (column - 1) (lineAt body line).length ≤ position + width / 2) ∧
    (w.PointsAt position ↔ ∀ c ∈ (lineAt body line).take (column - 1), c.utf8Size = 1)

/-- The window of an excerpt never reaches outside of the line, and when its width is even and the
column is one of the line, it is what the excerpt shows. -/
theorem excerpt_exact (body : String) (line column width : Nat) :
    (shownWindow body line column width).Inside (lineAt body line).length ∧
      (0 < width → width % 2 = 0 → 0 < column → column ≤ byteLength (lineAt body line) →
        ShowsColumn body line column width (shownWindow body line column width)) := by
  refine ⟨Window.inside_windowAt _ column width, fun positive even first last => ?_⟩
  have nonempty : lineAt body line ≠ [] := by
    intro empty
    rw [empty, byteLength] at last
    omega
  obtain ⟨position, holds⟩ := exists_holdsColumn first last
  constructor
  case shows => exact Window.shows_excerpt nonempty column width
  case size => exact Window.stop_sub_start_le even _ column
  case located =>
    exact ⟨position, holds, holds.contains_iff positive even, holds.pointsAt_iff positive even⟩

/-- A text of two lines, of which the second has a wide character where a value should be. -/
def wideValue : String := "\x7b\"a\": 1,\r\n  \"x\": ñ\x7d"

/-- Behind characters of one byte, the mark stands under a wide character. -/
theorem excerpt_exact_wide_value :
    ((0 < 6 ∧ 6 % 2 = 0) ∧ 0 < 8 ∧ 8 ≤ byteLength (lineAt wideValue 2)) ∧
      excerpt wideValue 2 8 6 = "...\": ñ\x7d...\n      ^" ∧
      ∃ position, (lineAt wideValue 2)[position]? = some 'ñ' ∧
        HoldsColumn (lineAt wideValue 2) 8 position ∧
        (shownWindow wideValue 2 8 6).PointsAt position := by
  have last : 8 ≤ byteLength (lineAt wideValue 2) := by decide +kernel
  have shown := (excerpt_exact wideValue 2 8 6).2 (by decide) (by decide) (by decide) last
  obtain ⟨position, holds, -, points⟩ := shown.located
  have single : byteLength ((lineAt wideValue 2).take (8 - 1)) =
      ((lineAt wideValue 2).take (8 - 1)).length := by decide +kernel
  have under := points.mpr (byteLength_eq_length_iff.mp single)
  have mark : (shownWindow wideValue 2 8 6).mark = 7 := by decide +kernel
  have seventh : position = 7 := under.2.symm.trans mark
  refine ⟨⟨by decide, by decide, last⟩, by decide +kernel, position, ?_, holds, under⟩
  rw [seventh]
  decide +kernel

/-- A text with a wide character in front of the place where a value should be. -/
def wideTitle : String := "\x7b\"title\": \"Introducción\", \"x\": \x7d"

/-- Behind a wide character the mark of an excerpt can stand under no character of the line. -/
theorem not_forall_pointsAt :
    ¬∀ (body : String) (line column width : Nat), 0 < width → width % 2 = 0 →
      ∀ position, HoldsColumn (lineAt body line) column position →
        ∃ w : Window, w.Inside (lineAt body line).length ∧
          w.Shows (lineAt body line) (excerpt body line column width) ∧
          w.stop - w.start ≤ width ∧ w.PointsAt position := by
  intro all
  have holds : HoldsColumn (lineAt wideTitle 1) 33 31 :=
    ⟨by decide +kernel, by decide +kernel, by decide +kernel⟩
  have length : (lineAt wideTitle 1).length = 32 := by decide +kernel
  have size : (excerpt wideTitle 1 33 24).toList.length = 35 := by decide +kernel
  obtain ⟨w, inside, ⟨before, shown, behind, -, ⟨-, count⟩, text⟩, -, within, mark⟩ :=
    all wideTitle 1 33 24 (by decide) (by decide) 31 holds
  have stop := inside.stop_le
  -- The row of the mark is as long as the part of the line up to it, and the two rows do not match.
  have total := congrArg List.length text
  simp only [size, List.length_append, List.length_replicate, count] at total
  have dots : "...".toList.length = 3 ∧ "...\n".toList.length = 4 ∧ "...".length = 3 ∧
    ['^'].length = 1 := ⟨rfl, rfl, rfl, rfl⟩
  unfold Window.Contains at within
  omega

end Timetable.Json
