import Timetable.Proofs.Json.Tokens

/-!
# Skipping any value

Whatever JSON value stands in the text, `skipValue` goes behind it (`skipValue_of_derives`). The
lists and objects that are open are on a stack, so the statement for a value inside of others is
that the loop, standing before the value, comes to stand behind it with the same stack
(`Skipped`). The fuel that this takes is at most the number of characters of the value.
-/

namespace Timetable.Json

open Text

/-! ## Numbers -/

theorem dropDigits_of_digits {s t : List Char} (digits : Digits s t)
    (stop : startsWithDigit t = false) : (dropDigits s).2 = t := by
  induction digits with
  | none t =>
    cases t with
    | nil => rfl
    | cons c rest =>
      rw [startsWithDigit] at stop
      simp [dropDigits, stop]
  | cons digit _ ih => simp [dropDigits, digit?_eq_some digit, ih stop]

theorem isExponentMark_of {mark : Char} (isMark : mark = 'e' ∨ mark = 'E') :
    isExponentMark mark = true := by
  rcases isMark with rfl | rfl <;> rfl

theorem skipExponent_of_digits {path : Path} {s t : List Char} (digits : SomeDigits s t)
    (stop : startsWithDigit t = false) : skipExponent path s = .ok t := by
  cases digits with
  | @first c s t digit digits =>
    have unsigned : c ≠ '+' ∧ c ≠ '-' :=
      ⟨ne_of_isDigit digit (by decide), ne_of_isDigit digit (by decide)⟩
    simp [skipExponent, unsigned, digit?_eq_some digit, dropDigits_of_digits digits stop]

theorem skipExponent_of_signed {path : Path} {sign : Char} {s t : List Char}
    (isSign : sign = '+' ∨ sign = '-') (digits : SomeDigits s t)
    (stop : startsWithDigit t = false) : skipExponent path (sign :: s) = .ok t := by
  cases digits with
  | first digit digits =>
    rcases isSign with rfl | rfl <;>
      simp [skipExponent, digit?_eq_some digit, dropDigits_of_digits digits stop]

theorem skipTail_of_exponent (path : Path) {s t : List Char} (exponent : Exponent s t)
    (ends : Ends t) : skipTail path s = .ok t := by
  have stop := ends.startsWithDigit
  cases exponent with
  | none =>
    cases s with
    | nil => rfl
    | cons c rest => simp [skipTail, (ends c rest rfl).2.2]
  | plain isMark digits =>
    rw [skipTail, if_pos (isExponentMark_of isMark)]
    exact skipExponent_of_digits digits stop
  | signed isMark isSign digits =>
    rw [skipTail, if_pos (isExponentMark_of isMark)]
    exact skipExponent_of_signed isSign digits stop

/-- Behind the digits of a number stands neither a digit nor, behind its decimals, a point. -/
theorem stop_of_exponent {s t : List Char} (exponent : Exponent s t) (ends : Ends t) :
    startsWithDigit s = false ∧ ∀ rest, s ≠ '.' :: rest := by
  have mark : ∀ {c : Char} {rest : List Char}, c = 'e' ∨ c = 'E' →
      startsWithDigit (c :: rest) = false ∧ ∀ behind, c :: rest ≠ '.' :: behind := by
    intro c rest isMark
    rcases isMark with rfl | rfl
    · exact ⟨rfl, fun behind same => by cases same⟩
    · exact ⟨rfl, fun behind same => by cases same⟩
  cases exponent with
  | none => exact ⟨ends.startsWithDigit, fun rest same => (ends _ _ same).2.1 rfl⟩
  | plain isMark _ => exact mark isMark
  | signed isMark _ _ => exact mark isMark

theorem skipFraction_of_fraction (path : Path) {s a t : List Char} (fraction : Fraction s a)
    (exponent : Exponent a t) (ends : Ends t) : skipFraction path s = .ok t := by
  obtain ⟨stop, noPoint⟩ := stop_of_exponent exponent ends
  have tail := skipTail_of_exponent path exponent ends
  cases fraction with
  | none =>
    rw [skipFraction]
    · exact tail
    · exact noPoint
  | decimals digits =>
    cases digits with
    | first digit digits =>
      simp [skipFraction, startsWithDigit, digit?_eq_some digit, dropDigits,
        dropDigits_of_digits digits stop, tail]

theorem stop_of_fraction {s a t : List Char} (fraction : Fraction s a) (exponent : Exponent a t)
    (ends : Ends t) : startsWithDigit s = false := by
  cases fraction with
  | none => exact (stop_of_exponent exponent ends).1
  | decimals _ =>
    have point : digit? '.' = none := by decide
    simp [startsWithDigit, point]

theorem skipNumber_of_whole (path : Path) {s a b t : List Char} (whole : Whole s a)
    (fraction : Fraction a b) (exponent : Exponent b t) (ends : Ends t) :
    skipNumber path s = .ok t := by
  have stop := stop_of_fraction fraction exponent ends
  have rest := skipFraction_of_fraction path fraction exponent ends
  cases whole with
  | zero =>
    have zero : digit? '0' = some 0 := by decide
    simp [skipNumber, zero, stop, rest]
  | @digits c s _ digit nonzero digits =>
    have above : c.toNat - '0'.toNat ≠ 0 := by
      intro zero
      have least : '0'.toNat ≤ c.toNat := (isDigit_iff.1 digit).1
      exact nonzero (Char.toNat_inj.1 (by omega))
    obtain ⟨d, value⟩ : ∃ d, digit? c = some (d + 1) := by
      obtain ⟨d, value⟩ := Nat.exists_eq_succ_of_ne_zero above
      exact ⟨d, by rw [digit?_eq_some digit, value]⟩
    simp [skipNumber, value, dropDigits_of_digits digits stop, rest]

/-! ## Texts and words -/

theorem skipText_of_escape {path : Path} {r s : List Char} {shorter}
    (skipped : skipEscape path r = .ok ⟨s, shorter⟩) :
    skipText path ('\\' :: r) = skipText path s := by
  rw [skipText, if_neg (by decide), if_pos rfl, skipped]

/-- Skipping does not look at what an escape stands for. -/
theorem skipText_of_anyChars {path : Path} {s t : List Char} (chars : AnyChars s t) :
    skipText path s = .ok t := by
  induction chars with
  | close t => rw [skipText, if_pos rfl]
  | plain plain _ ih =>
    obtain ⟨noQuote, noEscape, noControl⟩ := plain
    rw [skipText, if_neg noQuote, if_neg noEscape, if_neg (by omega), ih]
  | @short letter c s t short _ ih =>
    have skipped : skipEscape path (letter :: s) = .ok ⟨s, Nat.lt_succ_self _⟩ := by
      simp [skipEscape, simpleEscape?_of_mem short]
    rw [skipText_of_escape skipped, ih]
  | @numbered n r s t quad _ ih =>
    obtain ⟨shorter, read⟩ := readQuad_of_quad path quad
    have skipped : skipEscape path ('u' :: r) = .ok ⟨s, Nat.lt_succ_of_lt shorter⟩ := by
      have numeric : simpleEscape? 'u' = none := by decide
      simp [skipEscape, numeric, read]
    rw [skipText_of_escape skipped, ih]

/-- A scalar is skipped, and starts neither like a list nor like an object. -/
structure Scalar (s t : List Char) : Prop where
  starts : ∃ c rest, s = c :: rest ∧ isSpace c = false ∧ c ∉ ['[', ']', '\x7b']
  skipped : ∀ path, Ends t → skipScalar path s = .ok t

theorem scalar_null (t : List Char) : Scalar ("null".toList ++ t) t where
  starts := ⟨'n', _, rfl, by decide⟩
  skipped path _ := readWord_append path "ull".toList t

theorem scalar_truth (t : List Char) : Scalar ("true".toList ++ t) t where
  starts := ⟨'t', _, rfl, by decide⟩
  skipped path _ := readWord_append path "rue".toList t

theorem scalar_falsity (t : List Char) : Scalar ("false".toList ++ t) t where
  starts := ⟨'f', _, rfl, by decide⟩
  skipped path _ := readWord_append path "alse".toList t

theorem scalar_text {s t : List Char} (chars : AnyChars s t) : Scalar ('"' :: s) t where
  starts := ⟨'"', s, rfl, by decide⟩
  skipped path _ := by simp [skipScalar, skipText_of_anyChars chars, digit?]

theorem exists_of_whole {s t : List Char} (whole : Whole s t) :
    ∃ c rest, s = c :: rest ∧ c.isDigit := by
  cases whole with
  | zero => exact ⟨'0', _, rfl, by decide⟩
  | digits digit _ _ => exact ⟨_, _, rfl, digit⟩

theorem scalar_numeral {s t : List Char} (numeral : Numeral s t) : Scalar s t := by
  cases numeral with
  | positive whole fraction exponent =>
    obtain ⟨c, rest, rfl, digit⟩ := exists_of_whole whole
    have noBracket : c ∉ ['[', ']', '\x7b'] := by
      have all : ∀ d ∈ ['[', ']', '\x7b'], d.isDigit = false := by simp
      exact fun member => ne_of_isDigit digit (all c member) rfl
    refine ⟨⟨c, rest, rfl, isSpace_of_isDigit digit, noBracket⟩, fun path ends => ?_⟩
    have noNull : c ≠ 'n' := ne_of_isDigit digit (by decide)
    have noTruth : c ≠ 't' := ne_of_isDigit digit (by decide)
    have noFalsity : c ≠ 'f' := ne_of_isDigit digit (by decide)
    have noMinus : c ≠ '-' := ne_of_isDigit digit (by decide)
    have number := skipNumber_of_whole path whole fraction exponent ends
    simp [skipScalar, noNull, noTruth, noFalsity, noMinus, digit?_eq_some digit, number]
  | @negative s a b _ whole fraction exponent =>
    refine ⟨⟨'-', s, rfl, by decide⟩, fun path ends => ?_⟩
    exact skipNumber_of_whole path whole fraction exponent ends

/-! ## Rounds of the loop -/

section Rounds

variable (path : Path) (fuel : Nat) (stack : List Frame)

/-- Goes on to the next item of the list or object that was opened last. -/
def enterItem (frame : Frame) (s : List Char) : Except Fault (List Char) :=
  match frame.enter path s with
  | .error fault => .error fault
  | .ok rest => skipLoop path fuel .before (frame :: stack) rest

theorem skipLoop_scalar {u s t : List Char} (space : Blanks u s) (scalar : Scalar s t)
    (ends : Ends t) :
    skipLoop path (fuel + 1) .before stack u = skipLoop path fuel .behind stack t := by
  obtain ⟨c, rest, rfl, fresh, noBracket⟩ := scalar.starts
  simp only [List.mem_cons, List.not_mem_nil, or_false, not_or] at noBracket
  obtain ⟨noList, -, noObject⟩ := noBracket
  simp [skipLoop, skipSpace_of_blanks space fresh, noList, noObject, scalar.skipped path ends]

theorem skipLoop_opening (frame : Frame) {u s : List Char}
    (space : Blanks u (frame.opening :: s)) :
    skipLoop path (fuel + 1) .before stack u =
      skipLoop.skipOpen path fuel frame stack s := by
  cases frame with
  | list => simp [skipLoop, skipSpace_of_blanks space, Frame.opening, isSpace]
  | object => simp [skipLoop, skipSpace_of_blanks space, Frame.opening, isSpace]

theorem skipOpen_close {frame : Frame} {s t : List Char} (space : Blanks s (frame.close :: t)) :
    skipLoop.skipOpen path fuel frame stack s = skipLoop path fuel .behind stack t := by
  have fresh : isSpace frame.close = false := by cases frame <;> decide
  simp [skipLoop.skipOpen, skipSpace_of_blanks space fresh]

theorem skipOpen_item {frame : Frame} {s rest : List Char} {c : Char}
    (space : Blanks s (c :: rest)) (fresh : isSpace c = false) (other : c ≠ frame.close) :
    skipLoop.skipOpen path fuel frame stack s = enterItem path fuel stack frame (c :: rest) := by
  simp only [skipLoop.skipOpen, skipSpace_of_blanks space fresh, other, if_false]
  rfl

theorem skipLoop_close {frame : Frame} {s t : List Char} (space : Blanks s (frame.close :: t)) :
    skipLoop path (fuel + 1) .behind (frame :: stack) s = skipLoop path fuel .behind stack t := by
  have fresh : isSpace frame.close = false := by cases frame <;> decide
  have other : frame.close ≠ ',' := by cases frame <;> decide
  simp [skipLoop, skipSpace_of_blanks space fresh, other]

theorem skipLoop_comma {frame : Frame} {s t : List Char} (space : Blanks s (',' :: t)) :
    skipLoop path (fuel + 1) .behind (frame :: stack) s = enterItem path fuel stack frame t := by
  have fresh : isSpace ',' = false := by decide
  simp only [skipLoop, skipSpace_of_blanks space fresh, if_true]
  rfl

end Rounds

/-! ## Any value -/

/-- What skipping does with a value, and with the items of a list or object. -/
def Skipped : Part → List Char → List Char → Prop
  | .value, s, t =>
    ∃ used, used + t.length ≤ s.length ∧ ∀ path fuel stack u, Blanks u s → Ends t →
      skipLoop path (fuel + used) .before stack u = skipLoop path fuel .behind stack t
  | .items frame, s, t =>
    ∃ used c rest, Blanks s (c :: rest) ∧ isSpace c = false ∧ c ≠ frame.close ∧
      used + t.length ≤ s.length ∧ ∀ path fuel stack u, Blanks u (c :: rest) →
        enterItem path (fuel + used) stack frame u = skipLoop path fuel .behind stack t

theorem Scalar.isSkipped {s t : List Char} (scalar : Scalar s t) (shorter : t.length < s.length) :
    Skipped .value s t :=
  ⟨1, by omega, fun path fuel stack _ space ends =>
    skipLoop_scalar path fuel stack space scalar ends⟩

/-- A value starts neither with a blank nor with the end of a list. -/
theorem exists_of_value {s t : List Char} (value : Derives .value s t) :
    ∃ c rest, s = c :: rest ∧ isSpace c = false ∧ c ≠ ']' := by
  have of_scalar : Scalar s t → ∃ c rest, s = c :: rest ∧ isSpace c = false ∧ c ≠ ']' := by
    intro scalar
    obtain ⟨c, rest, whole, fresh, noBracket⟩ := scalar.starts
    exact ⟨c, rest, whole, fresh, fun same => noBracket (by simp [same])⟩
  have of_opening : ∀ (frame : Frame) (rest : List Char), ∃ c behind,
      frame.opening :: rest = c :: behind ∧ isSpace c = false ∧ c ≠ ']' := by
    intro frame rest
    refine ⟨frame.opening, rest, rfl, ?_⟩
    cases frame <;> decide
  cases value with
  | null => exact of_scalar (scalar_null t)
  | truth => exact of_scalar (scalar_truth t)
  | falsity => exact of_scalar (scalar_falsity t)
  | numeral numeral => exact of_scalar (scalar_numeral numeral)
  | text chars => exact of_scalar (scalar_text chars)
  | empty _ => exact of_opening _ _
  | nest _ => exact of_opening _ _

/-- An item starts neither with a blank nor with the end of its list or object. -/
theorem exists_of_lead {frame : Frame} {a b c : List Char} (lead : Lead frame a b)
    (value : Derives .value b c) :
    ∃ d rest, a = d :: rest ∧ isSpace d = false ∧ d ≠ frame.close := by
  cases lead with
  | element => exact exists_of_value value
  | @member s _ _ _ _ _ _ => exact ⟨'"', s, rfl, by decide⟩

/-- What leads to the value of an item is taken, up to blanks. -/
theorem exists_enter_of_lead {frame : Frame} {u a b : List Char} (path : Path) (space : Blanks u a)
    (lead : Lead frame a b) : ∃ v, frame.enter path u = .ok v ∧ Blanks v b := by
  cases lead with
  | element => exact ⟨u, rfl, space⟩
  | @member s a b' _ chars before behind =>
    have quoted := skipSpace_of_blanks space (by decide)
    have colon := skipSpace_of_blanks before (by decide)
    refine ⟨b', ?_, behind⟩
    simp [Frame.enter, skipName, quoted, skipText_of_anyChars chars, colon]

/-- An item is skipped up to what stands behind its value. -/
theorem exists_of_item {frame : Frame} {a b c : List Char} (lead : Lead frame a b)
    (skipped : Skipped .value b c) (ends : Ends c) :
    ∃ used, used + c.length ≤ a.length ∧ ∀ path fuel stack u, Blanks u a →
      enterItem path (fuel + used) stack frame u =
        skipLoop path fuel .behind (frame :: stack) c := by
  obtain ⟨used, enough, run⟩ := skipped
  refine ⟨used, Nat.le_trans enough lead.length_le, fun path fuel stack u space => ?_⟩
  obtain ⟨v, entered, space⟩ := exists_enter_of_lead path space lead
  rw [enterItem, entered]
  exact run path fuel (frame :: stack) v space ends

theorem ends_of_close {frame : Frame} {c t : List Char} (space : Blanks c (frame.close :: t)) :
    Ends c := by
  refine ends_of_blanks space (.inr ⟨frame.close, t, rfl, ?_⟩)
  cases frame <;> decide

theorem ends_of_comma {c t : List Char} (space : Blanks c (',' :: t)) : Ends c :=
  ends_of_blanks space (.inr ⟨',', t, rfl, by decide⟩)

/-- Every JSON value is skipped, with no more rounds than it has characters. -/
theorem skipped_of_derives {part : Part} {s t : List Char} (derives : Derives part s t) :
    Skipped part s t := by
  induction derives with
  | null t => exact (scalar_null t).isSkipped (by simp; omega)
  | truth t => exact (scalar_truth t).isSkipped (by simp; omega)
  | falsity t => exact (scalar_falsity t).isSkipped (by simp; omega)
  | numeral numeral => exact (scalar_numeral numeral).isSkipped numeral.length_lt
  | text chars => exact (scalar_text chars).isSkipped (Nat.lt_succ_of_lt chars.length_lt)
  | @empty frame s t space =>
    have shorter := space.length_le
    refine ⟨1, by simp only [List.length_cons] at *; omega, fun path fuel stack u before _ => ?_⟩
    rw [skipLoop_opening path fuel stack frame before, skipOpen_close path fuel stack space]
  | @nest frame s t _ ih =>
    obtain ⟨used, c, rest, space, fresh, other, enough, run⟩ := ih
    refine ⟨used + 1, by rw [List.length_cons]; omega, fun path fuel stack u before _ => ?_⟩
    rw [← Nat.add_assoc, skipLoop_opening path _ stack frame before,
      skipOpen_item path _ stack space fresh other]
    exact run path fuel stack (c :: rest) (.none _)
  | @last frame s a b c t space lead value close ih =>
    obtain ⟨d, rest, rfl, fresh, other⟩ := exists_of_lead lead value
    obtain ⟨used, enough, run⟩ := exists_of_item lead ih (ends_of_close close)
    have before := space.length_le
    have behind := close.length_le
    refine ⟨used + 1, d, rest, space, fresh, other, ?_, fun path fuel stack u before => ?_⟩
    · simp only [List.length_cons] at *
      omega
    · rw [Nat.add_comm used 1, ← Nat.add_assoc, run path _ stack u before,
        skipLoop_close path fuel stack close]
  | @next frame s a b c e t space lead value comma _ ih ihRest =>
    obtain ⟨d, rest, rfl, fresh, other⟩ := exists_of_lead lead value
    obtain ⟨used, enough, run⟩ := exists_of_item lead ih (ends_of_comma comma)
    obtain ⟨usedRest, d', rest', space', -, -, enoughRest, runRest⟩ := ihRest
    have before := space.length_le
    have behind := comma.length_le
    refine ⟨usedRest + 1 + used, d, rest, space, fresh, other, ?_,
      fun path fuel stack u before => ?_⟩
    · simp only [List.length_cons] at *
      omega
    · rw [← Nat.add_assoc, run path _ stack u before, ← Nat.add_assoc,
        skipLoop_comma path _ stack comma]
      exact runRest path fuel stack e space'

theorem Derives.length_le {s t : List Char} (value : Derives .value s t) :
    t.length ≤ s.length := by
  obtain ⟨used, enough, -⟩ := skipped_of_derives value
  omega

/-- Any JSON value is skipped. -/
theorem skipValue_of_derives (path : Path) {u s t : List Char} (space : Blanks u s)
    (value : Derives .value s t) (ends : Ends t) : skipValue path u = .ok t := by
  obtain ⟨used, enough, run⟩ := skipped_of_derives value
  have before := space.length_le
  obtain ⟨spare, fuel⟩ : ∃ spare, u.length + 1 = spare + 1 + used := ⟨u.length - used, by omega⟩
  rw [skipValue, fuel, run path (spare + 1) [] u space ends, skipLoop]

end Timetable.Json
