import Mathlib.Data.List.Forall2
import Timetable.Clock

/-!
# The notation of clock times

What a clock time looks like is said by a grammar of its own: an hour of one or two digits, minutes
of two digits behind a colon or none at all, the letters of the half of the day, and blanks before,
between and after. The reader accepts exactly this notation, and gives the minute of the day that
it stands for (`read_eq_some_iff`). Each of its parts is treated alone: what it takes is in the
notation, and it takes a notation whole when what follows does not continue it.
-/

namespace Timetable

/-! ## Letters -/

theorem Text.toNat_toUpper (c : Char) :
    c.toUpper.toNat = if 97 ≤ c.toNat ∧ c.toNat ≤ 122 then c.toNat - 32 else c.toNat := by
  have lower : 'a'.val ≤ c.val ∧ c.val ≤ 'z'.val ↔ 97 ≤ c.toNat ∧ c.toNat ≤ 122 := Iff.rfl
  unfold Char.toUpper
  by_cases inside : 97 ≤ c.toNat ∧ c.toNat ≤ 122
  · rw [dif_pos (lower.mpr inside), if_pos inside]
    show (c.val + ('A'.val - 'a'.val)).toNat = c.toNat - 32
    have shift : ('A'.val - 'a'.val).toNat = 4294967264 := by decide
    rw [UInt32.toNat_add, shift]
    show (c.toNat + 4294967264) % 4294967296 = c.toNat - 32
    omega
  · rw [dif_neg (inside ∘ lower.mp), if_neg inside]

/-- A capital letter is what two characters are raised to: itself and its small form. -/
theorem Text.toUpper_eq_iff {c : Char} (capital small : Char)
    (letter : 65 ≤ capital.toNat ∧ capital.toNat ≤ 90) (pair : small.toNat = capital.toNat + 32) :
    c.toUpper = capital ↔ c = capital ∨ c = small := by
  rw [← Char.toNat_inj, ← Char.toNat_inj, ← Char.toNat_inj, toNat_toUpper]
  split <;> omega

namespace Clock

open Text

/-! ## The notation -/

/-- The character is the ASCII digit of a number below ten. -/
def Writes (c : Char) (d : Nat) : Prop := d < 10 ∧ c.toNat = '0'.toNat + d

/-- The hour has one digit or two. -/
inductive HourText : List Char → Nat → Prop
  | one {c : Char} {d : Nat} : Writes c d → HourText [c] d
  | two {a b : Char} {x y : Nat} : Writes a x → Writes b y → HourText [a, b] (10 * x + y)

/-- The minutes have two digits behind a colon. A whole hour needs none. -/
inductive MinuteText : List Char → Nat → Prop
  | whole : MinuteText [] 0
  | digits {a b : Char} {x y : Nat} :
    Writes a x → Writes b y → MinuteText [':', a, b] (10 * x + y)

/-- The half of the day is written `AM` or `PM`, in any case. -/
inductive HalfText : List Char → Half → Prop
  | morning {a m : Char} : a = 'A' ∨ a = 'a' → m = 'M' ∨ m = 'm' → HalfText [a, m] .morning
  | evening {p m : Char} : p = 'P' ∨ p = 'p' → m = 'M' ∨ m = 'm' → HalfText [p, m] .evening

/-- Nothing but blanks. -/
def AllBlank (s : List Char) : Prop := ∀ c ∈ s, isBlank c = true

/-- The text is a clock time that shows this minute of the day. At twelve the hour hand starts
over, and noon is twelve hours after midnight. -/
inductive Shows : List Char → Nat → Prop
  | mk {before hour minutes between half after : List Char} {h m : Nat} {x : Half} :
    AllBlank before → HourText hour h → MinuteText minutes m → AllBlank between → HalfText half x →
    AllBlank after → 1 ≤ h ∧ h ≤ 12 → m < 60 →
    Shows (before ++ hour ++ minutes ++ between ++ half ++ after)
      ((h % 12 + if x = .evening then 12 else 0) * 60 + m)

theorem minuteOf_eq (h m : Nat) (x : Half) :
    minuteOf h m x = (h % 12 + if x = .evening then 12 else 0) * 60 + m := by
  cases x <;> rfl

/-! ## Digits -/

theorem digit?_eq_some_iff {c : Char} {d : Nat} : digit? c = some d ↔ Writes c d := by
  have range : ('0' ≤ c ∧ c ≤ '9') ↔ 48 ≤ c.toNat ∧ c.toNat ≤ 57 := Iff.rfl
  have zero : '0'.toNat = 48 := rfl
  unfold digit? Writes
  rw [zero]
  by_cases inside : '0' ≤ c ∧ c ≤ '9'
  · rw [if_pos inside]
    have bounds := range.mp inside
    constructor
    · rintro ⟨⟩
      omega
    · rintro ⟨small, same⟩
      rw [same, Nat.add_sub_cancel_left]
  · rw [if_neg inside]
    constructor
    · rintro ⟨⟩
    · rintro ⟨small, same⟩
      exact absurd (range.mpr (by omega)) inside

/-- The text does not begin with a digit. -/
def NoDigit (s : List Char) : Prop := ∀ c rest, s = c :: rest → digit? c = none

/-- The digits at the start of a text are taken, as many as there are. -/
theorem takeDigits_sound {s rest : List Char} {ds : List Nat} (taken : takeDigits s = (ds, rest)) :
    ∃ text, s = text ++ rest ∧ List.Forall₂ Writes text ds := by
  unfold takeDigits at taken
  obtain ⟨rfl, rfl⟩ := Prod.mk.inj taken
  refine ⟨s.takeWhile (digit? · |>.isSome), List.takeWhile_append_dropWhile.symm, ?_⟩
  have digits : ∀ c ∈ s.takeWhile (digit? · |>.isSome), (digit? c).isSome = true :=
    List.all_eq_true.mp List.all_takeWhile
  generalize s.takeWhile (digit? · |>.isSome) = text at digits
  induction text with
  | nil => exact .nil
  | cons c text ih =>
    obtain ⟨first, digits⟩ := List.forall_mem_cons.mp digits
    obtain ⟨d, value⟩ := Option.isSome_iff_exists.mp first
    rw [List.filterMap_cons_some value]
    exact .cons (digit?_eq_some_iff.mp value) (ih digits)

theorem takeDigits_complete {text rest : List Char} {ds : List Nat}
    (written : List.Forall₂ Writes text ds) (stop : NoDigit rest) :
    takeDigits (text ++ rest) = (ds, rest) := by
  induction written with
  | nil =>
    unfold takeDigits
    cases rest with
    | nil => rfl
    | cons c rest => simp [stop c rest rfl]
  | @cons c d text ds first _ ih =>
    have value := digit?_eq_some_iff.mpr first
    have digit : (digit? c).isSome = true := by rw [value]; rfl
    unfold takeDigits at ih ⊢
    obtain ⟨digits, left⟩ := Prod.mk.inj ih
    rw [List.cons_append, List.takeWhile_cons, if_pos digit, List.dropWhile_cons, if_pos digit,
      List.filterMap_cons_some value, digits, left]

theorem ofDigits_pair (x y : Nat) : ofDigits 10 [x, y] = 10 * x + y := by
  simp [ofDigits, Nat.mul_comm]

/-- An hour is a number of one digit or two. -/
theorem hourText_iff {text : List Char} {h : Nat} :
    HourText text h ↔
      ∃ ds, List.Forall₂ Writes text ds ∧ (ds.length = 1 ∨ ds.length = 2) ∧ ofDigits 10 ds = h := by
  constructor
  · intro written
    cases written with
    | one first => exact ⟨[h], .cons first .nil, Or.inl rfl, by simp [ofDigits]⟩
    | @two a b x y first second =>
      exact ⟨[x, y], .cons first (.cons second .nil), Or.inr rfl, ofDigits_pair x y⟩
  · rintro ⟨ds, written, count, rfl⟩
    rcases written with _ | ⟨first, _ | ⟨second, _ | _⟩⟩
    · simp at count
    · simpa [ofDigits] using HourText.one first
    · simpa only [ofDigits_pair] using HourText.two first second
    · simp at count

/-! ## Minutes -/

theorem readMinutes_sound {s rest : List Char} {m : Nat} (read : readMinutes s = some (m, rest)) :
    ∃ text, s = text ++ rest ∧ MinuteText text m := by
  unfold readMinutes at read
  split at read
  · next behind =>
    split at read
    · next x y left taken =>
      cases read
      obtain ⟨text, rfl, written⟩ := takeDigits_sound taken
      rcases written with _ | ⟨first, _ | ⟨second, _ | _⟩⟩
      rw [ofDigits_pair]
      exact ⟨_, rfl, .digits first second⟩
    · cases read
  · cases read
    exact ⟨[], rfl, .whole⟩

theorem readMinutes_complete {text rest : List Char} {m : Nat} (written : MinuteText text m)
    (stop : NoDigit rest) (plain : ∀ behind, rest ≠ ':' :: behind) :
    readMinutes (text ++ rest) = some (m, rest) := by
  cases written with
  | whole =>
    rw [List.nil_append]
    unfold readMinutes
    split
    · exact absurd rfl (plain _)
    · rfl
  | @digits a b x y first second =>
    have taken := takeDigits_complete (.cons first (.cons second .nil)) stop
    show readMinutes (':' :: ([a, b] ++ rest)) = _
    unfold readMinutes
    simp only [taken, ofDigits_pair]

/-! ## The half of the day -/

theorem halfText_pair_iff {a m : Char} {x : Half} :
    HalfText [a, m] x ↔
      m.toUpper = 'M' ∧ (a.toUpper = 'A' ∧ x = .morning ∨ a.toUpper = 'P' ∧ x = .evening) := by
  rw [toUpper_eq_iff 'M' 'm' (by decide) (by decide),
    toUpper_eq_iff 'A' 'a' (by decide) (by decide), toUpper_eq_iff 'P' 'p' (by decide) (by decide)]
  constructor
  · rintro (⟨first, second⟩ | ⟨first, second⟩)
    · exact ⟨second, Or.inl ⟨first, rfl⟩⟩
    · exact ⟨second, Or.inr ⟨first, rfl⟩⟩
  · rintro ⟨second, ⟨first, rfl⟩ | ⟨first, rfl⟩⟩
    · exact .morning first second
    · exact .evening first second

/-- Blanks at the start of a text are passed over. -/
theorem dropWhile_blank {blanks rest : List Char} (blank : AllBlank blanks)
    (stop : ∀ c behind, rest = c :: behind → isBlank c = false) :
    (blanks ++ rest).dropWhile isBlank = rest := by
  rw [List.dropWhile_append_of_pos blank]
  cases rest with
  | nil => rfl
  | cons c behind => rw [List.dropWhile_cons, stop c behind rfl, if_neg Bool.false_ne_true]

theorem allBlank_takeWhile (s : List Char) : AllBlank (s.takeWhile isBlank) :=
  List.all_eq_true.mp List.all_takeWhile

theorem readHalf_sound {s : List Char} {x : Half} (read : readHalf s = some x) :
    ∃ between half after, s = between ++ half ++ after ∧ AllBlank between ∧ HalfText half x ∧
      AllBlank after := by
  unfold readHalf at read
  split at read
  · next a m after behind =>
    have whole : s = s.takeWhile isBlank ++ [a, m] ++ after := by
      rw [List.append_assoc, List.cons_append, List.cons_append, List.nil_append, ← behind,
        List.takeWhile_append_dropWhile]
    split at read
    · next letters =>
      obtain ⟨second, blank⟩ := letters
      refine ⟨s.takeWhile isBlank, [a, m], after, whole, allBlank_takeWhile s, ?_,
        List.all_eq_true.mp blank⟩
      rw [halfText_pair_iff]
      split at read
      · next first => exact ⟨second, Or.inl ⟨first, (Option.some.inj read).symm⟩⟩
      · split at read
        · next first => exact ⟨second, Or.inr ⟨first, (Option.some.inj read).symm⟩⟩
        · cases read
    · cases read
  · cases read

/-- The letters of the half of the day are neither blanks nor digits nor a colon. -/
theorem isLetter_of_halfText {a : Char} {rest : List Char} {x : Half}
    (written : HalfText (a :: rest) x) : isBlank a = false ∧ digit? a = none ∧ a ≠ ':' := by
  cases written with
  | morning first _ => rcases first with rfl | rfl <;> decide
  | evening first _ => rcases first with rfl | rfl <;> decide

theorem readHalf_complete {between half after : List Char} {x : Half} (blank : AllBlank between)
    (written : HalfText half x) (trailing : AllBlank after) :
    readHalf (between ++ half ++ after) = some x := by
  obtain ⟨a, m, rfl⟩ : ∃ a m, half = [a, m] := by cases written <;> exact ⟨_, _, rfl⟩
  have letter := (isLetter_of_halfText written).1
  have behind : (between ++ [a, m] ++ after).dropWhile isBlank = a :: m :: after := by
    rw [List.append_assoc]
    refine dropWhile_blank blank ?_
    rintro _ _ ⟨⟩
    exact letter
  obtain ⟨second, first⟩ := halfText_pair_iff.mp written
  unfold readHalf
  simp only [behind, second, List.all_eq_true.mpr trailing, and_self, if_true]
  rcases first with ⟨first, rfl⟩ | ⟨first, rfl⟩
  · rw [if_pos first]
  · have other : a.toUpper ≠ 'A' := by rw [first]; decide
    rw [if_neg other, if_pos first]

/-! ## Clock times -/

theorem not_blank_of_writes {c : Char} {d : Nat} (digit : Writes c d) : isBlank c = false := by
  obtain ⟨small, same⟩ := digit
  have zero : '0'.toNat = 48 := rfl
  rw [Bool.eq_false_iff]
  intro blank
  simp [isBlank, blankRanges] at blank
  omega

/-- A blank is neither a digit nor a colon. -/
theorem not_digit_of_isBlank {c : Char} (blank : isBlank c = true) :
    digit? c = none ∧ c ≠ ':' := by
  refine ⟨?_, ?_⟩
  · rw [Option.eq_none_iff_forall_ne_some]
    intro d value
    rw [not_blank_of_writes (digit?_eq_some_iff.mp value)] at blank
    cases blank
  · rintro rfl
    revert blank
    decide

/-- What follows the minutes continues neither a number nor the hour. -/
theorem head_of_halfText {between half after : List Char} {x : Half} (blank : AllBlank between)
    (written : HalfText half x) (c : Char) (rest : List Char)
    (whole : between ++ half ++ after = c :: rest) : digit? c = none ∧ c ≠ ':' := by
  cases between with
  | nil =>
    cases half with
    | nil => cases written
    | cons a half =>
      obtain ⟨rfl, -⟩ := List.cons.inj whole
      exact (isLetter_of_halfText written).2
  | cons b between =>
    obtain ⟨rfl, -⟩ := List.cons.inj whole
    exact not_digit_of_isBlank (blank b List.mem_cons_self)

/-- When its parts are read and the numbers are those on a clock, a time is read. -/
theorem read_of_parts {s rest behind : List Char} {ds : List Nat} {m : Nat} {x : Half}
    (taken : takeDigits (s.dropWhile isBlank) = (ds, rest)) (count : ds.length = 1 ∨ ds.length = 2)
    (minutes : readMinutes rest = some (m, behind)) (half : readHalf behind = some x)
    (twelve : 1 ≤ ofDigits 10 ds ∧ ofDigits 10 ds ≤ 12) (sixty : m < 60) :
    read s = some (minuteOf (ofDigits 10 ds) m x) := by
  have short : ¬(ds.length = 0 ∨ 2 < ds.length) := by omega
  unfold read
  simp only [taken, if_neg short, minutes, half, Option.bind_eq_bind, Option.bind_some]
  rw [if_pos ⟨twelve.1, twelve.2, sixty⟩]

theorem exists_parts_of_read {s : List Char} {minute : Nat} (read_s : read s = some minute) :
    ∃ ds rest m behind x, takeDigits (s.dropWhile isBlank) = (ds, rest) ∧
      (ds.length = 1 ∨ ds.length = 2) ∧ readMinutes rest = some (m, behind) ∧
      readHalf behind = some x ∧ (1 ≤ ofDigits 10 ds ∧ ofDigits 10 ds ≤ 12) ∧ m < 60 ∧
      minute = minuteOf (ofDigits 10 ds) m x := by
  rcases taken : takeDigits (s.dropWhile isBlank) with ⟨ds, rest⟩
  unfold read at read_s
  simp only [taken] at read_s
  split at read_s
  · cases read_s
  · next count =>
    simp only [Option.bind_eq_bind, Option.bind_eq_some_iff] at read_s
    obtain ⟨⟨m, behind⟩, minutes, x, half, read_s⟩ := read_s
    split at read_s
    · next clock =>
      obtain ⟨low, high, sixty⟩ := clock
      exact ⟨ds, rest, m, behind, x, rfl, by omega, minutes, half, ⟨low, high⟩, sixty,
        (Option.some.inj read_s).symm⟩
    · cases read_s

theorem read_sound {s : List Char} {minute : Nat} (read_s : read s = some minute) :
    Shows s minute := by
  obtain ⟨ds, rest, m, behind, x, taken, count, minutes, half, twelve, sixty, rfl⟩ :=
    exists_parts_of_read read_s
  obtain ⟨hourText, left, written⟩ := takeDigits_sound taken
  obtain ⟨minuteText, rfl, colon⟩ := readMinutes_sound minutes
  obtain ⟨between, halfText, after, rfl, apart, letters, trailing⟩ := readHalf_sound half
  have whole :
      s.takeWhile isBlank ++ hourText ++ minuteText ++ between ++ halfText ++ after = s := by
    simp only [List.append_assoc] at left ⊢
    rw [← left, List.takeWhile_append_dropWhile]
  have shown := Shows.mk (allBlank_takeWhile s) (hourText_iff.mpr ⟨ds, written, count, rfl⟩) colon
    apart letters trailing twelve sixty
  rwa [whole, ← minuteOf_eq] at shown

theorem read_complete {s : List Char} {minute : Nat} (shown : Shows s minute) :
    read s = some minute := by
  rcases shown with
    @⟨before, hour, minutes, between, half, after, h, m, x, blank, hours, colon, apart, letters,
      trailing, twelve, sixty⟩
  have ends : ∀ c rest, between ++ half ++ after = c :: rest → digit? c = none ∧ c ≠ ':' :=
    head_of_halfText apart letters
  have minuteStop : NoDigit (between ++ half ++ after) := fun c rest whole => (ends c rest whole).1
  have hourStop : NoDigit (minutes ++ (between ++ half ++ after)) := by
    intro c rest whole
    cases colon with
    | whole => exact (ends c rest whole).1
    | digits _ _ =>
      obtain ⟨rfl, -⟩ := List.cons.inj whole
      decide
  obtain ⟨ds, digits, count, rfl⟩ := hourText_iff.mp hours
  have skipped : (before ++ (hour ++ (minutes ++ (between ++ half ++ after)))).dropWhile isBlank =
      hour ++ (minutes ++ (between ++ half ++ after)) := by
    refine dropWhile_blank blank ?_
    intro c behind whole
    rcases digits with _ | ⟨first, _⟩
    · simp at count
    · obtain ⟨rfl, -⟩ := List.cons.inj whole
      exact not_blank_of_writes first
  rw [← minuteOf_eq]
  have minutesRead := readMinutes_complete colon minuteStop fun _ whole => (ends _ _ whole).2 rfl
  refine read_of_parts ?_ count minutesRead (readHalf_complete apart letters trailing) twelve sixty
  rw [← takeDigits_complete digits hourStop, ← skipped]
  simp only [List.append_assoc]

/-- The reader accepts exactly the notation, and gives the minute that it shows. -/
theorem read_eq_some_iff {s : List Char} {minute : Nat} : read s = some minute ↔ Shows s minute :=
  ⟨read_sound, read_complete⟩

/-- A clock shows a minute of the day. -/
theorem Shows.lt {s : List Char} {minute : Nat} (shown : Shows s minute) :
    minute < minutesPerDay := by
  rcases shown with @⟨_, _, _, _, _, _, h, m, x, _, _, _, _, _, _, _, sixty⟩
  have hours : h % 12 < 12 := Nat.mod_lt _ (by omega)
  unfold minutesPerDay
  split <;> omega

end Clock

end Timetable
