import Mathlib.Data.Nat.Init
import Timetable.Json.Reader
import Timetable.Proofs.Json.Written

/-!
# Reading tokens

Each reader of a token takes exactly what the written form of the token says. Numbers are the only
tokens without an end of their own, so what follows them must not continue them (`Ends`).
-/

namespace Timetable.Json

open Text

/-! ## Blanks -/

theorem isSpace_of_mem_blanks {c : Char} (blank : c ∈ blanks) : isSpace c = true := by
  simpa [isSpace, blanks, or_assoc] using blank

/-- Skipping blanks stops at the first character that is no blank. -/
theorem skipSpace_of_blanks {u s : List Char} {c : Char} (space : Blanks u (c :: s))
    (fresh : isSpace c = false) : skipSpace u = c :: s := by
  generalize whole : c :: s = t at space
  induction space with
  | none t =>
    subst whole
    simp [skipSpace, fresh]
  | cons blank _ ih =>
    have skipped := ih whole
    simp only [skipSpace] at skipped ⊢
    rw [List.dropWhile_cons_of_pos (isSpace_of_mem_blanks blank), skipped]

/-! ## What follows a number -/

/-- A text that does not continue a number. -/
def Ends (t : List Char) : Prop :=
  ∀ c rest, t = c :: rest → c.isDigit = false ∧ c ≠ '.' ∧ isExponentMark c = false

/-- What follows a value is the end of the text, or behind any blanks a comma or a bracket. -/
theorem ends_of_blanks {t u : List Char} (space : Blanks t u)
    (follow : u = [] ∨ ∃ c rest, u = c :: rest ∧ c ∈ [',', ']', '\x7d']) : Ends t := by
  intro c rest whole
  have any : c ∈ blanks ∨ c ∈ [',', ']', '\x7d'] := by
    cases space with
    | none =>
      rcases follow with rfl | ⟨d, behind, rfl, mem⟩
      · cases whole
      · cases whole
        exact .inr mem
    | cons blank _ =>
      cases whole
      exact .inl blank
  have all : ∀ d ∈ blanks ++ [',', ']', '\x7d'],
      d.isDigit = false ∧ d ≠ '.' ∧ isExponentMark d = false := by
    simp [blanks, isExponentMark]
  exact all c (List.mem_append.2 any)

/-! ## Digits -/

theorem isDigit_iff {c : Char} : c.isDigit = true ↔ '0' ≤ c ∧ c ≤ '9' := by
  simp only [Char.isDigit, Bool.and_eq_true, decide_eq_true_eq]
  exact Iff.rfl

theorem digit?_eq_some {c : Char} (digit : c.isDigit) :
    digit? c = some (c.toNat - '0'.toNat) := by
  rw [digit?, if_pos (isDigit_iff.1 digit)]

theorem digit?_eq_none {c : Char} (other : c.isDigit = false) : digit? c = none := by
  have outside : ¬('0' ≤ c ∧ c ≤ '9') := by
    rw [← isDigit_iff, other]
    exact Bool.false_ne_true
  rw [digit?, if_neg outside]

theorem ne_of_isDigit {c d : Char} (digit : c.isDigit) (other : d.isDigit = false) : c ≠ d := by
  intro same
  rw [same, other] at digit
  cases digit

theorem isSpace_of_isDigit {c : Char} (digit : c.isDigit) : isSpace c = false := by
  have others : ∀ d ∈ blanks, d.isDigit = false := by simp [blanks]
  cases space : isSpace c with
  | false => rfl
  | true =>
    have blank : c ∈ blanks := by simpa [isSpace, blanks, or_assoc] using space
    exact absurd rfl (ne_of_isDigit digit (others c blank))

theorem Ends.startsWithDigit {t : List Char} (ends : Ends t) : startsWithDigit t = false := by
  cases t with
  | nil => rfl
  | cons c rest =>
    rw [Json.startsWithDigit, digit?_eq_none (ends c rest rfl).1]
    rfl

theorem le_ofDigitChars (ds : List Char) (value : Nat) : value ≤ Nat.ofDigitChars 10 ds value := by
  induction ds generalizing value with
  | nil => exact Nat.le_refl value
  | cons d ds ih =>
    rw [Nat.ofDigitChars_cons]
    have more := ih (10 * value + (d.toNat - '0'.toNat))
    omega

/-- Digits are taken as long as the number fits 64 bits, and so are all of a number that does. -/
theorem takeDigits_append {ds t : List Char} {value : Nat} (digits : ∀ c ∈ ds, c.isDigit)
    (stop : startsWithDigit t = false) (fits : Nat.ofDigitChars 10 ds value ≤ maxNatural) :
    ∃ count, takeDigits value (ds ++ t) = (Nat.ofDigitChars 10 ds value, count, t) := by
  induction ds generalizing value with
  | nil =>
    cases t with
    | nil => exact ⟨0, by simp [takeDigits]⟩
    | cons c rest =>
      have other : digit? c = none := by simpa [startsWithDigit] using stop
      exact ⟨0, by simp [takeDigits, other]⟩
  | cons c ds ih =>
    rw [Nat.ofDigitChars_cons, Nat.mul_comm] at fits
    obtain ⟨count, taken⟩ := ih (fun d member => digits d (List.mem_cons_of_mem c member)) fits
    have room := Nat.le_trans (le_ofDigitChars ds _) fits
    refine ⟨count + 1, ?_⟩
    rw [List.cons_append, takeDigits, digit?_eq_some (digits c List.mem_cons_self)]
    simp only [room, if_true, taken, Nat.ofDigitChars_cons, Nat.mul_comm 10]

/-- The digits of a number start with a zero only when it is zero. -/
theorem toDigits_cons {n : Nat} (positive : 0 < n) :
    ∃ d ds, Nat.toDigits 10 n = Nat.digitChar d :: ds ∧ 0 < d ∧ d < 10 := by
  induction n using Nat.strongRecOn with
  | _ n ih =>
    by_cases small : n < 10
    · exact ⟨n, [], Nat.toDigits_of_lt_base small, positive, small⟩
    · obtain ⟨d, ds, digits, bounds⟩ := ih (n / 10) (by omega) (by omega)
      refine ⟨d, ds ++ [(n % 10).digitChar], ?_, bounds⟩
      rw [Nat.toDigits_of_base_le (by decide) (by omega), digits, List.cons_append]

theorem digit?_digitChar {d : Nat} (small : d < 10) : digit? d.digitChar = some d := by
  have all : ∀ d < 10, digit? (Nat.digitChar d) = some d := by decide
  exact all d small

/-! ## Integers -/

theorem readFraction_of_ends {path : Path} {positive : Bool} {n : Nat} {t : List Char}
    (ends : Ends t) :
    readFraction path positive n t = .ok (readFraction.integer positive n, t) := by
  cases t with
  | nil => rfl
  | cons c rest =>
    obtain ⟨-, point, mark⟩ := ends c rest rfl
    simp [readFraction, point, mark]

/-- A number that fits 64 bits is read off its decimal digits. -/
theorem readNumber_toDigits (path : Path) (positive : Bool) {n : Nat} {t : List Char}
    (fits : n ≤ maxNatural) (ends : Ends t) :
    readNumber path positive (Nat.toDigits 10 n ++ t) =
      .ok (readFraction.integer positive n, t) := by
  have stop := ends.startsWithDigit
  rcases Nat.eq_zero_or_pos n with rfl | above
  · have zero : digit? '0' = some 0 := by decide
    show readNumber path positive ('0' :: t) = _
    simp [readNumber, zero, stop, readFraction_of_ends ends]
  · obtain ⟨d, ds, digits, nonzero, small⟩ := toDigits_cons above
    have total : Nat.ofDigitChars 10 (d.digitChar :: ds) 0 = n := by
      rw [← digits]
      exact Nat.ofDigitChars_toDigits (by decide) (by decide)
    have first : d.digitChar.toNat - '0'.toNat = d := by
      have all : ∀ d < 10, (Nat.digitChar d).toNat - '0'.toNat = d := by decide
      exact all d small
    rw [Nat.ofDigitChars_cons, first, Nat.mul_zero, Nat.zero_add] at total
    have tail : ∀ c ∈ ds, c.isDigit := by
      intro c member
      have among : c ∈ Nat.toDigits 10 n := digits ▸ List.mem_cons_of_mem _ member
      exact Nat.isDigit_of_mem_toDigits (by decide) (by decide) among
    obtain ⟨count, taken⟩ := takeDigits_append tail stop (total.symm ▸ fits)
    rw [digits, List.cons_append, readNumber, digit?_digitChar small]
    obtain ⟨e, rfl⟩ : ∃ e, d = e + 1 := ⟨d - 1, by omega⟩
    simp [taken, total, stop, readFraction_of_ends ends]

/-- An integer is written as the digits of its magnitude, behind a minus when it is negative. -/
theorem exists_of_integerText {n : Int} {s t : List Char} (decimal : IntegerText n s t) :
    (∃ m : Nat, n = m ∧ s = Nat.toDigits 10 m ++ t) ∨
      ∃ m : Nat, 0 < m ∧ n = -m ∧ s = '-' :: (Nat.toDigits 10 m ++ t) := by
  rw [IntegerText, Int.toString_eq_repr, Int.repr_eq_if] at decimal
  split at decimal
  case isTrue sign =>
    refine .inl ⟨n.toNat, by omega, ?_⟩
    simpa [Nat.repr_eq_ofList_toDigits] using decimal
  case isFalse sign =>
    refine .inr ⟨(-n).toNat, by omega, by omega, ?_⟩
    simpa [Nat.repr_eq_ofList_toDigits] using decimal

theorem exists_digit_of_toDigits (n : Nat) :
    ∃ d ds, Nat.toDigits 10 n = d :: ds ∧ d.isDigit := by
  cases digits : Nat.toDigits 10 n with
  | nil => exact absurd digits Nat.toDigits_ne_nil
  | cons d ds =>
    have among : d ∈ Nat.toDigits 10 n := digits ▸ List.mem_cons_self
    exact ⟨d, ds, rfl, Nat.isDigit_of_mem_toDigits (by decide) (by decide) among⟩

/-- An integer of 64 bits is read off its decimal notation when it lies between the bounds. -/
theorem integer_of_decimal {path : Path} {low high n : Int} {wanted : String} {u s t : List Char}
    (inside : low ≤ n ∧ n ≤ high) (wide : -(lowestMagnitude : Int) ≤ n ∧ n ≤ maxNatural)
    (space : Blanks u s) (decimal : IntegerText n s t) (ends : Ends t) :
    integer low high wanted path u = .ok (n, t) := by
  rcases exists_of_integerText decimal with ⟨m, rfl, rfl⟩ | ⟨m, above, rfl, rfl⟩
  · have fits : m ≤ maxNatural := by omega
    have number := readNumber_toDigits path true fits ends
    obtain ⟨d, ds, digits, digit⟩ := exists_digit_of_toDigits m
    have fresh := isSpace_of_isDigit digit
    have plain : d ≠ '-' := ne_of_isDigit digit (by decide)
    rw [digits, List.cons_append] at space number
    simp [integer, skipSpace_of_blanks space fresh, plain, digit?_eq_some digit, number,
      Except.bind, readFraction.integer, checkInteger, checkInteger.check, inside]
  · have fits : m ≤ maxNatural := by
      simp only [lowestMagnitude, maxNatural] at wide ⊢
      omega
    have number := readNumber_toDigits path false fits ends
    have fresh : isSpace '-' = false := by decide
    have near : ¬(m = 0 ∨ lowestMagnitude < m) := by omega
    simp [integer, skipSpace_of_blanks space fresh, number, Except.bind, readFraction.integer,
      near, checkInteger, checkInteger.check, inside]

/-! ## Words -/

theorem readWord_append (path : Path) (word t : List Char) :
    readWord path word (word ++ t) = .ok t := by
  induction word with
  | nil => rfl
  | cons c word ih =>
    rw [List.cons_append, readWord, if_pos rfl]
    exact ih

theorem flag_of_flagText {path : Path} {x : Bool} {u s t : List Char} (space : Blanks u s)
    (written : FlagText x s t) : flag path u = .ok (x, t) := by
  subst written
  cases x with
  | true =>
    have skipped : skipSpace u = 't' :: ("rue".toList ++ t) :=
      skipSpace_of_blanks space (by decide)
    simp only [flag, skipped, readWord_append, Except.map]
  | false =>
    have skipped : skipSpace u = 'f' :: ("alse".toList ++ t) :=
      skipSpace_of_blanks space (by decide)
    simp only [flag, skipped, readWord_append, Except.map]

/-! ## Texts -/

theorem hexDigit?_of_hexDigit {value : Nat} {c : Char} (digit : HexDigit value c) :
    hexDigit? c = some value := by
  have all : ∀ v < 16, hexDigit? (Nat.digitChar v) = some v ∧
      hexDigit? (Nat.digitChar v).toUpper = some v := by decide
  obtain ⟨small, rfl | rfl⟩ := digit
  · exact (all value small).1
  · exact (all value small).2

theorem readQuad_of_quad (path : Path) {n : Nat} {r s : List Char} (quad : Quad n r s) :
    ∃ shorter, readQuad path r = .ok (n, ⟨s, shorter⟩) := by
  cases quad with
  | digits t a b c d =>
    have total : ofDigits 16 [n / 4096, n / 256 % 16, n / 16 % 16, n % 16] = n := by
      simp only [ofDigits, List.foldl]
      omega
    refine ⟨by simp only [List.length_cons]; omega, ?_⟩
    simp only [readQuad, hexDigit?_of_hexDigit a, hexDigit?_of_hexDigit b,
      hexDigit?_of_hexDigit c, hexDigit?_of_hexDigit d, total]

/-- No character is a surrogate. -/
theorem toNat_valid (c : Char) : c.toNat < 0xd800 ∨ 0xdfff < c.toNat ∧ c.toNat < 0x110000 :=
  c.valid

theorem isLeading_iff {n : Nat} : isLeading n = true ↔ 0xd800 ≤ n ∧ n ≤ 0xdbff := by
  simp [isLeading]

theorem isTrailing_iff {n : Nat} : isTrailing n = true ↔ 0xdc00 ≤ n ∧ n ≤ 0xdfff := by
  simp [isTrailing]

theorem readUnicode_of_quad (path : Path) {c : Char} {r s : List Char}
    (basic : c.toNat < 0x10000) (quad : Quad c.toNat r s) :
    ∃ shorter, readUnicode path r = .ok (c, ⟨s, shorter⟩) := by
  obtain ⟨shorter, read⟩ := readQuad_of_quad path quad
  have valid := toNat_valid c
  have trailing : ¬isTrailing c.toNat := by
    rw [isTrailing_iff]
    omega
  have leading : ¬isLeading c.toNat := by
    rw [isLeading_iff]
    omega
  refine ⟨shorter, ?_⟩
  simp [readUnicode, read, trailing, leading]

/-- The two surrogates of a character are surrogates, and stand for it. -/
theorem surrogates_of {c : Char} (beyond : 0x10000 ≤ c.toNat) :
    isLeading (leadingOf c) ∧ ¬isTrailing (leadingOf c) ∧ isTrailing (trailingOf c) ∧
      joinPair (leadingOf c) (trailingOf c) = c := by
  have valid := toNat_valid c
  have leading : 0xd800 ≤ leadingOf c ∧ leadingOf c ≤ 0xdbff := by
    unfold leadingOf
    omega
  have trailing : 0xdc00 ≤ trailingOf c ∧ trailingOf c ≤ 0xdfff := by
    unfold trailingOf
    omega
  have sum : (leadingOf c - 0xd800) * 0x400 + (trailingOf c - 0xdc00) + 0x10000 = c.toNat := by
    unfold leadingOf trailingOf
    omega
  refine ⟨isLeading_iff.2 leading, ?_, isTrailing_iff.2 trailing, ?_⟩
  · rw [isTrailing_iff]
    omega
  · rw [joinPair, sum, Char.ofNat_toNat]

theorem readUnicode_of_pair (path : Path) {c : Char} {q r s : List Char}
    (beyond : 0x10000 ≤ c.toNat) (first : Quad (leadingOf c) q ('\\' :: 'u' :: r))
    (second : Quad (trailingOf c) r s) :
    ∃ shorter, readUnicode path q = .ok (c, ⟨s, shorter⟩) := by
  obtain ⟨shorter, read⟩ := readQuad_of_quad path first
  obtain ⟨further, readNext⟩ := readQuad_of_quad path second
  obtain ⟨leading, notTrailing, trailing, joined⟩ := surrogates_of beyond
  simp only [List.length_cons] at shorter
  refine ⟨by omega, ?_⟩
  simp [readUnicode, read, readNext, notTrailing, leading, trailing, joined]

theorem simpleEscape?_of_mem {letter c : Char} (short : (letter, c) ∈ shortEscapes) :
    simpleEscape? letter = some c := by
  have all : ∀ e ∈ shortEscapes, simpleEscape? e.1 = some e.2 := by
    simp [shortEscapes, simpleEscape?]
  exact all _ short

theorem readEscape_of_unicode {path : Path} {c : Char} {r s : List Char} {shorter}
    (read : readUnicode path r = .ok (c, ⟨s, shorter⟩)) :
    ∃ further, readEscape path ('u' :: r) = .ok (c, ⟨s, further⟩) := by
  have numeric : simpleEscape? 'u' = none := by decide
  refine ⟨Nat.lt_succ_of_lt shorter, ?_⟩
  simp [readEscape, numeric, read]

theorem readChars_of_escape {path : Path} {c : Char} {r s : List Char} {shorter}
    (read : readEscape path r = .ok (c, ⟨s, shorter⟩)) (done : List Char) :
    readChars path ('\\' :: r) done = readChars path s (c :: done) := by
  rw [readChars, if_neg (by decide), if_pos rfl, read]

/-- A text is read character by character, whichever way they are written. -/
theorem readChars_of_chars {path : Path} {content s t : List Char} (chars : Chars content s t)
    (done : List Char) :
    readChars path s done = .ok (String.ofList (done.reverse ++ content), t) := by
  have moved : ∀ (c : Char) (done content : List Char),
      (c :: done).reverse ++ content = done.reverse ++ c :: content := by simp
  induction chars generalizing done with
  | close t => rw [readChars, if_pos rfl, List.append_nil]
  | plain plain _ ih =>
    obtain ⟨noQuote, noEscape, noControl⟩ := plain
    rw [readChars, if_neg noQuote, if_neg noEscape, if_neg (by omega), ih, moved]
  | @short letter c content s t short _ ih =>
    have read : readEscape path (letter :: s) = .ok (c, ⟨s, Nat.lt_succ_self _⟩) := by
      simp [readEscape, simpleEscape?_of_mem short]
    rw [readChars_of_escape read, ih, moved]
  | numbered basic quad _ ih =>
    obtain ⟨shorter, number⟩ := readUnicode_of_quad path basic quad
    obtain ⟨further, read⟩ := readEscape_of_unicode number
    rw [readChars_of_escape read, ih, moved]
  | paired beyond first second _ ih =>
    obtain ⟨shorter, number⟩ := readUnicode_of_pair path beyond first second
    obtain ⟨further, read⟩ := readEscape_of_unicode number
    rw [readChars_of_escape read, ih, moved]

end Timetable.Json
