import Timetable.Json.Skip

/-!
# The written form of JSON values

What a JSON text looks like, said without a reader. A `Form` relates a text to what is left of it
behind something of that form, so forms that follow each other share the place where they meet.

* `Blanks`, `Numeral`, `Chars` and `AnyChars` are the tokens. `Chars` spells a given text in any
  mixture of plain characters and escapes; `AnyChars` is whatever may stand between quotation marks,
  surrogates without their partner included.
* `Derives .value` is any JSON value, of any depth.
* `ListText` and `ObjectText` are lists and objects whose parts have forms of their own.
* `RecordText` is an object with declared members in any order, some of which may be left out, and
  any further members among them.
-/

namespace Timetable.Json

/-- `W s t`: the text `s` starts with something of the form `W`, and `t` follows it. -/
abbrev Form := List Char → List Char → Prop

/-! ## Blanks and numbers -/

/-- The characters that may stand between tokens. -/
def blanks : List Char := [' ', '\n', '\t', '\r']

/-- Any number of blanks. -/
inductive Blanks : Form where
  | none (t : List Char) : Blanks t t
  | cons {c : Char} {s t : List Char} : c ∈ blanks → Blanks s t → Blanks (c :: s) t

/-- Any number of digits. -/
inductive Digits : Form where
  | none (t : List Char) : Digits t t
  | cons {c : Char} {s t : List Char} : c.isDigit → Digits s t → Digits (c :: s) t

/-- At least one digit. -/
inductive SomeDigits : Form where
  | first {c : Char} {s t : List Char} : c.isDigit → Digits s t → SomeDigits (c :: s) t

/-- A zero alone, or digits of which the first is not zero. -/
inductive Whole : Form where
  | zero (t : List Char) : Whole ('0' :: t) t
  | digits {c : Char} {s t : List Char} : c.isDigit → c ≠ '0' → Digits s t → Whole (c :: s) t

/-- Decimals behind a point, if any. -/
inductive Fraction : Form where
  | none (t : List Char) : Fraction t t
  | decimals {s t : List Char} : SomeDigits s t → Fraction ('.' :: s) t

/-- An exponent, if any. -/
inductive Exponent : Form where
  | none (t : List Char) : Exponent t t
  | plain {mark : Char} {s t : List Char} :
    mark = 'e' ∨ mark = 'E' → SomeDigits s t → Exponent (mark :: s) t
  | signed {mark sign : Char} {s t : List Char} :
    mark = 'e' ∨ mark = 'E' → sign = '+' ∨ sign = '-' → SomeDigits s t →
    Exponent (mark :: sign :: s) t

/-- Any number. -/
inductive Numeral : Form where
  | positive {s a b t : List Char} : Whole s a → Fraction a b → Exponent b t → Numeral s t
  | negative {s a b t : List Char} : Whole s a → Fraction a b → Exponent b t → Numeral ('-' :: s) t

/-! ## Texts -/

/-- The letters that name an escape, each with the character that it stands for. -/
def shortEscapes : List (Char × Char) :=
  [('"', '"'), ('\\', '\\'), ('/', '/'), ('b', '\x08'), ('f', '\x0c'), ('n', '\n'), ('r', '\r'),
   ('t', '\t')]

/-- A hexadecimal digit, in either case. -/
def HexDigit (value : Nat) (c : Char) : Prop :=
  value < 16 ∧ (c = value.digitChar ∨ c = value.digitChar.toUpper)

/-- The four hexadecimal digits of a number. -/
inductive Quad (n : Nat) : Form where
  | digits {a b c d : Char} (t : List Char) :
    HexDigit (n / 4096) a → HexDigit (n / 256 % 16) b → HexDigit (n / 16 % 16) c →
    HexDigit (n % 16) d → Quad n (a :: b :: c :: d :: t) t

/-- The first surrogate of a character beyond the basic plane. -/
def leadingOf (c : Char) : Nat := 0xd800 + (c.toNat - 0x10000) / 0x400

/-- The second surrogate of a character beyond the basic plane. -/
def trailingOf (c : Char) : Nat := 0xdc00 + (c.toNat - 0x10000) % 0x400

/-- A character that may stand for itself between quotation marks. -/
def Plain (c : Char) : Prop := c ≠ '"' ∧ c ≠ '\\' ∧ 0x20 ≤ c.toNat

instance (c : Char) : Decidable (Plain c) := inferInstanceAs (Decidable (_ ∧ _))

/-- The given characters, each plain or escaped, up to and with the closing quotation mark. -/
inductive Chars : List Char → Form where
  | close (t : List Char) : Chars [] ('"' :: t) t
  | plain {c : Char} {content s t : List Char} :
    Plain c → Chars content s t → Chars (c :: content) (c :: s) t
  | short {letter c : Char} {content s t : List Char} :
    (letter, c) ∈ shortEscapes → Chars content s t →
    Chars (c :: content) ('\\' :: letter :: s) t
  | numbered {c : Char} {content r s t : List Char} :
    c.toNat < 0x10000 → Quad c.toNat r s → Chars content s t →
    Chars (c :: content) ('\\' :: 'u' :: r) t
  | paired {c : Char} {content q r s t : List Char} :
    0x10000 ≤ c.toNat → Quad (leadingOf c) q ('\\' :: 'u' :: r) → Quad (trailingOf c) r s →
    Chars content s t → Chars (c :: content) ('\\' :: 'u' :: q) t

/-- Whatever may stand between quotation marks, up to and with the closing one. -/
inductive AnyChars : Form where
  | close (t : List Char) : AnyChars ('"' :: t) t
  | plain {c : Char} {s t : List Char} : Plain c → AnyChars s t → AnyChars (c :: s) t
  | short {letter c : Char} {s t : List Char} :
    (letter, c) ∈ shortEscapes → AnyChars s t → AnyChars ('\\' :: letter :: s) t
  | numbered {n : Nat} {r s t : List Char} :
    Quad n r s → AnyChars s t → AnyChars ('\\' :: 'u' :: r) t

/-! ## Any value -/

/-- The character that opens a list or object. -/
def Frame.opening : Frame → Char
  | list => '['
  | object => '\x7b'

/-- What stands in front of the value of an item: in an object a name and a colon. -/
inductive Lead : Frame → Form where
  | element (t : List Char) : Lead .list t t
  | member {s a b t : List Char} :
    AnyChars s a → Blanks a (':' :: b) → Blanks b t → Lead .object ('"' :: s) t

/-- The parts of a text that nest: a value, and the items of a list or object with its closing
bracket. -/
inductive Part where
  | value
  | items (frame : Frame)

/-- Any JSON value. -/
inductive Derives : Part → Form where
  | null (t : List Char) : Derives .value ("null".toList ++ t) t
  | truth (t : List Char) : Derives .value ("true".toList ++ t) t
  | falsity (t : List Char) : Derives .value ("false".toList ++ t) t
  | numeral {s t : List Char} : Numeral s t → Derives .value s t
  | text {s t : List Char} : AnyChars s t → Derives .value ('"' :: s) t
  | empty {frame : Frame} {s t : List Char} :
    Blanks s (frame.close :: t) → Derives .value (frame.opening :: s) t
  | nest {frame : Frame} {s t : List Char} :
    Derives (.items frame) s t → Derives .value (frame.opening :: s) t
  | last {frame : Frame} {s a b c t : List Char} :
    Blanks s a → Lead frame a b → Derives .value b c → Blanks c (frame.close :: t) →
    Derives (.items frame) s t
  | next {frame : Frame} {s a b c d t : List Char} :
    Blanks s a → Lead frame a b → Derives .value b c → Blanks c (',' :: d) →
    Derives (.items frame) d t → Derives (.items frame) s t

/-! ## Values with parts of a known form -/

/-- The form with blanks around it. -/
def Padded (W : Form) : Form := fun s t => ∃ a b, Blanks s a ∧ W a b ∧ Blanks b t

/-- One part for each of the given things, with commas between them, up to and with `closing`. -/
inductive Series {α : Type} (closing : Char) (W : α → Form) : List α → Form where
  | last {x : α} {s t : List Char} : W x s (closing :: t) → Series closing W [x] s t
  | next {x y : α} {rest : List α} {s a t : List Char} :
    W x s (',' :: a) → Series closing W (y :: rest) a t → Series closing W (x :: y :: rest) s t

/-- One part for each of the given things, between brackets. -/
inductive Enclosed {α : Type} (opening closing : Char) (W : α → Form) : List α → Form where
  | empty {s t : List Char} :
    Blanks s (closing :: t) → Enclosed opening closing W [] (opening :: s) t
  | parts {x : α} {rest : List α} {s t : List Char} :
    Series closing W (x :: rest) s t → Enclosed opening closing W (x :: rest) (opening :: s) t

/-- A list with one element for each of the given things. -/
def ListText {α : Type} (W : α → Form) : List α → Form :=
  Enclosed '[' ']' fun x => Padded (W x)

/-- A text in quotation marks. -/
inductive StringText (x : String) : Form where
  | quoted {s t : List Char} : Chars x.toList s t → StringText x ('"' :: s) t

/-- A member with a name and a value. -/
inductive Member (V : String → Form) (name : String) : Form where
  | named {s a b c t : List Char} :
    Blanks s a → StringText name a b → Blanks b (':' :: c) → Padded (V name) c t →
    Member V name s t

/-- An object with one member for each of the given names. -/
def ObjectText (V : String → Form) : List String → Form :=
  Enclosed '\x7b' '\x7d' (Member V)

/-- An integer in decimal notation. With a fraction or an exponent, or as `-0`, a number is a real,
whatever its value. -/
def IntegerText (n : Int) : Form := fun s t => s = (toString n).toList ++ t

/-- `true` or `false`. -/
def FlagText (x : Bool) : Form := fun s t => s = (toString x).toList ++ t

/-- A value, or `null` when there is none. -/
def OptionText {α : Type} (W : α → Form) : Option α → Form
  | none => fun s t => s = "null".toList ++ t
  | some x => W x

/-- A declared member of a record: its name, whether it may be left out, and the form of its
value. -/
structure Slot where
  name : String
  optional : Prop
  form : Form

/-- The value of a member: as declared, or any value when nothing is declared under the name. -/
inductive MemberValue (slots : List Slot) (name : String) : Form where
  | declared {slot : Slot} {s t : List Char} :
    slot ∈ slots → slot.name = name → slot.form s t → MemberValue slots name s t
  | further {s t : List Char} :
    (∀ slot ∈ slots, slot.name ≠ name) → Derives .value s t → MemberValue slots name s t

/-- An object with the declared members, each once, in any order, and any further members. Members
that may be left out need not be there. -/
inductive RecordText (slots : List Slot) : Form where
  | members {names : List String} {s t : List Char} :
    ObjectText (MemberValue slots) names s t →
    (∀ slot ∈ slots, names.count slot.name ≤ 1) →
    (∀ slot ∈ slots, slot.optional ∨ slot.name ∈ names) →
    RecordText slots s t

/-! ## What is left is shorter -/

theorem Blanks.length_le {s t : List Char} (space : Blanks s t) : t.length ≤ s.length := by
  induction space with
  | none t => exact Nat.le_refl _
  | cons _ _ ih =>
    rw [List.length_cons]
    omega

theorem Digits.length_le {s t : List Char} (digits : Digits s t) : t.length ≤ s.length := by
  induction digits with
  | none t => exact Nat.le_refl _
  | cons _ _ ih =>
    rw [List.length_cons]
    omega

theorem SomeDigits.length_lt {s t : List Char} (digits : SomeDigits s t) :
    t.length < s.length := by
  cases digits with
  | first _ digits => exact Nat.lt_succ_of_le digits.length_le

theorem Whole.length_lt {s t : List Char} (whole : Whole s t) : t.length < s.length := by
  cases whole with
  | zero => exact Nat.lt_succ_self _
  | digits _ _ digits => exact Nat.lt_succ_of_le digits.length_le

theorem Fraction.length_le {s t : List Char} (fraction : Fraction s t) :
    t.length ≤ s.length := by
  cases fraction with
  | none => exact Nat.le_refl _
  | decimals digits => exact Nat.le_succ_of_le (Nat.le_of_lt digits.length_lt)

theorem Exponent.length_le {s t : List Char} (exponent : Exponent s t) :
    t.length ≤ s.length := by
  cases exponent with
  | none => exact Nat.le_refl _
  | plain _ digits => exact Nat.le_succ_of_le (Nat.le_of_lt digits.length_lt)
  | signed _ _ digits =>
    have shorter := digits.length_lt
    simp only [List.length_cons]
    omega

theorem Numeral.length_lt {s t : List Char} (numeral : Numeral s t) : t.length < s.length := by
  have unsigned : ∀ {s a b t : List Char}, Whole s a → Fraction a b → Exponent b t →
      t.length < s.length := by
    intro s a b t whole fraction exponent
    have first := whole.length_lt
    have second := fraction.length_le
    have third := exponent.length_le
    omega
  cases numeral with
  | positive whole fraction exponent => exact unsigned whole fraction exponent
  | negative whole fraction exponent =>
    exact Nat.lt_succ_of_lt (unsigned whole fraction exponent)

theorem Quad.length_eq {n : Nat} {r s : List Char} (quad : Quad n r s) :
    r.length = s.length + 4 := by
  cases quad with
  | digits => rfl

theorem AnyChars.length_lt {s t : List Char} (chars : AnyChars s t) : t.length < s.length := by
  induction chars with
  | close => exact Nat.lt_succ_self _
  | plain _ _ ih => exact Nat.lt_succ_of_lt ih
  | short _ _ ih => exact Nat.lt_succ_of_lt (Nat.lt_succ_of_lt ih)
  | numbered quad _ ih =>
    have four := quad.length_eq
    simp only [List.length_cons]
    omega

theorem Lead.length_le {frame : Frame} {s t : List Char} (lead : Lead frame s t) :
    t.length ≤ s.length := by
  cases lead with
  | element => exact Nat.le_refl _
  | member chars before behind =>
    have name := chars.length_lt
    have colon := before.length_le
    have blank := behind.length_le
    simp only [List.length_cons] at *
    omega

/-- The characters of a text may stand between quotation marks. -/
theorem Chars.anyChars {content s t : List Char} (chars : Chars content s t) : AnyChars s t := by
  induction chars with
  | close t => exact .close t
  | plain plain _ ih => exact .plain plain ih
  | short short _ ih => exact .short short ih
  | numbered _ quad _ ih => exact .numbered quad ih
  | paired _ first second _ ih => exact .numbered first (.numbered second ih)

end Timetable.Json
