import Timetable.Json.Fault
import Timetable.Text.Case

/-!
# Tokens of a JSON text

Words, texts and numbers. Each reader consumes its token and leaves what follows; a fault shows at
the byte at which the token breaks off.
-/

namespace Timetable.Json

open Text

/-! ## Words -/

/-- Reads the remaining letters of `null`, `true` or `false`. -/
def readWord (path : Path) : List Char → List Char → Except Fault (List Char)
  | [], s => .ok s
  | _ :: _, [] => faultAt path [] .endOfValue
  | w :: word, c :: rest =>
    if c = w then readWord path word rest else faultNext path (c :: rest) .expectedWord

/-! ## Texts -/

/-- The character that a one-letter escape stands for. -/
def simpleEscape? : Char → Option Char
  | '"' => some '"'
  | '\\' => some '\\'
  | '/' => some '/'
  | 'b' => some '\x08'
  | 'f' => some '\x0c'
  | 'n' => some '\n'
  | 'r' => some '\r'
  | 't' => some '\t'
  | _ => none

/-- The number of bytes of a text in UTF-8. -/
def byteLength : List Char → Nat
  | [] => 0
  | c :: rest => c.utf8Size + byteLength rest

/-- Reads the four hexadecimal digits of a numeric escape. -/
def readQuad (path : Path) (s : List Char) :
    Except Fault (Nat × { r : List Char // r.length < s.length }) :=
  match s with
  | a :: b :: c :: d :: rest =>
    match hexDigit? a, hexDigit? b, hexDigit? c, hexDigit? d with
    | some a, some b, some c, some d =>
      .ok (ofDigits 16 [a, b, c, d], ⟨rest, by simp only [List.length_cons]; omega⟩)
    | _, _, _, _ => .error ⟨path, ⟨s, 4⟩, .badEscape⟩
  | s =>
    if byteLength s < 4 then faultAt path [] .endOfText else .error ⟨path, ⟨s, 4⟩, .badEscape⟩

/-- Whether a number is the first half of a surrogate pair. -/
def isLeading (n : Nat) : Bool := 0xd800 ≤ n && n ≤ 0xdbff

/-- Whether a number is the second half of a surrogate pair. -/
def isTrailing (n : Nat) : Bool := 0xdc00 ≤ n && n ≤ 0xdfff

/-- The character that a surrogate pair stands for. -/
def joinPair (leading trailing : Nat) : Char :=
  Char.ofNat ((leading - 0xd800) * 0x400 + (trailing - 0xdc00) + 0x10000)

/-- Reads a numeric escape behind its `u`. The halves of a surrogate pair come together. -/
def readUnicode (path : Path) (s : List Char) :
    Except Fault (Char × { r : List Char // r.length < s.length }) :=
  match readQuad path s with
  | .error fault => .error fault
  | .ok (n, ⟨rest, shorter⟩) =>
    if isTrailing n then faultAt path rest .loneSurrogate
    else if isLeading n then
      match rest with
      | [] => faultAt path [] .endOfText
      | '\\' :: behind =>
        match behind with
        | [] => faultAt path [] .endOfText
        | 'u' :: behind =>
          match readQuad path behind with
          | .error fault => .error fault
          | .ok (m, ⟨rest, further⟩) =>
            if isTrailing m then
              .ok (joinPair n m, ⟨rest, by simp only [List.length_cons] at shorter; omega⟩)
            else faultAt path rest .loneSurrogate
        | behind => faultNext path behind .unpairedEscape
      | rest => faultNext path rest .unpairedEscape
    else .ok (Char.ofNat n, ⟨rest, shorter⟩)

/-- Reads an escape behind its backslash. -/
def readEscape (path : Path) (s : List Char) :
    Except Fault (Char × { r : List Char // r.length < s.length }) :=
  match s with
  | [] => faultAt path [] .endOfText
  | e :: rest =>
    match simpleEscape? e with
    | some c => .ok (c, ⟨rest, by simp⟩)
    | none =>
      if e = 'u' then
        match readUnicode path rest with
        | .error fault => .error fault
        | .ok (c, ⟨rest', shorter⟩) => .ok (c, ⟨rest', by simp only [List.length_cons]; omega⟩)
      else faultNext path (e :: rest) .badEscape

/-- Reads a text behind its opening quotation mark; `done` holds its characters so far, the last one
first. -/
def readChars (path : Path) (s : List Char) (done : List Char) :
    Except Fault (String × List Char) :=
  match s with
  | [] => faultAt path [] .endOfText
  | c :: rest =>
    if c = '"' then .ok (String.ofList done.reverse, rest)
    else if c = '\\' then
      match readEscape path rest with
      | .error fault => .error fault
      | .ok (e, ⟨rest', _⟩) => readChars path rest' (e :: done)
    else if c.toNat < 0x20 then faultNext path (c :: rest) .controlCharacter
    else readChars path rest (c :: done)
termination_by s.length
decreasing_by all_goals simp only [List.length_cons]; omega

/-- Reads a text behind its opening quotation mark. -/
def readText (path : Path) (s : List Char) : Except Fault (String × List Char) :=
  readChars path s []

/-! ## Numbers -/

/-- A number as it was written: an integer that fits 64 bits, or a real. -/
inductive Number where
  | natural (value : Nat)
  | negative (value : Nat)
  | real (value : Float)

/-- The greatest integer of 64 bits without a sign. -/
def maxNatural : Nat := 18446744073709551615

/-- How far the least integer of 64 bits with a sign is from zero. -/
def lowestMagnitude : Nat := 9223372036854775808

/-- The greatest exponent that is counted. -/
def maxExponent : Nat := 2147483647

/-- The numbers of which reals are made, as binary floating-point numbers. -/
def ofNatural (n : Nat) : Float := (UInt64.ofNat n).toFloat

/-- A power of ten. -/
def tenTo (n : Nat) : Float := Float.ofScientific 1 false n

/-- Appends digits to `value` as long as the result fits 64 bits. Gives the value, the number of
digits taken, and what follows. -/
def takeDigits (value : Nat) : List Char → Nat × Nat × List Char
  | [] => (value, 0, [])
  | c :: rest =>
    match digit? c with
    | none => (value, 0, c :: rest)
    | some d =>
      if value * 10 + d ≤ maxNatural then
        let (total, count, rest) := takeDigits (value * 10 + d) rest
        (total, count + 1, rest)
      else (value, 0, c :: rest)

/-- Whether the next character is a digit. -/
def startsWithDigit : List Char → Bool
  | [] => false
  | c :: _ => (digit? c).isSome

/-- The text behind any digits, and their number. -/
def dropDigits : List Char → Nat × List Char
  | [] => (0, [])
  | c :: rest =>
    if (digit? c).isSome then let (count, rest) := dropDigits rest; (count + 1, rest)
    else (0, c :: rest)

/-- Divides by a power of ten, in steps of at most `10 ^ 308`. -/
def divideByTens (x : Float) (power : Nat) : Float :=
  if power ≤ 308 then x / tenTo power
  else if x == 0.0 then x
  else divideByTens (x / tenTo 308) (power - 308)
termination_by power

/-- The real `significand * 10 ^ exponent`, computed in floating point: one conversion, then one
multiplication, or divisions. None when it is too large. -/
def realOf? (significand : Nat) (exponent : Int) : Option Float :=
  let x := ofNatural significand
  if 0 ≤ exponent then
    if exponent ≤ 308 then
      let y := x * tenTo exponent.toNat
      if y.isInf then none else some y
    else if x == 0.0 then some x else none
  else some (divideByTens x (-exponent).toNat)

/-- A real with its sign. -/
def signed (positive : Bool) (x : Float) : Number := .real (if positive then x else -x)

/-- Finishes a real of which everything has been read. -/
def finishReal (path : Path) (positive : Bool) (significand : Nat) (exponent : Int)
    (rest : List Char) : Except Fault (Number × List Char) :=
  match realOf? significand exponent with
  | some x => .ok (signed positive x, rest)
  | none => faultAt path rest .numberTooLarge

/-- The exponents that are counted, as of 32 bits. -/
def clampExponent (e : Int) : Int := max (-(maxExponent : Int) - 1) (min maxExponent e)

/-- Reads the digits of an exponent behind its first one. An exponent of more than 31 bits makes a
zero, or a number that is too large. -/
def readExponentDigits (path : Path) (positive positiveExponent : Bool) (significand : Nat)
    (start : Int) (value : Nat) : List Char → Except Fault (Number × List Char)
  | [] => finish [] value
  | c :: rest =>
    match digit? c with
    | none => finish (c :: rest) value
    | some d =>
      if value * 10 + d ≤ maxExponent then
        readExponentDigits path positive positiveExponent significand start (value * 10 + d) rest
      else if significand ≠ 0 ∧ positiveExponent then faultAt path rest .numberTooLarge
      else .ok (signed positive 0.0, (dropDigits rest).2)
where
  finish (rest : List Char) (value : Nat) : Except Fault (Number × List Char) :=
    finishReal path positive significand
      (clampExponent (if positiveExponent then start + value else start - value)) rest

/-- Reads an exponent behind its letter. -/
def readExponent (path : Path) (positive : Bool) (significand : Nat) (start : Int)
    (s : List Char) : Except Fault (Number × List Char) :=
  let (positiveExponent, s) := match s with
    | '+' :: rest => (true, rest)
    | '-' :: rest => (false, rest)
    | s => (true, s)
  match s with
  | [] => faultAt path [] .endOfValue
  | c :: rest =>
    match digit? c with
    | none => faultNext path (c :: rest) .badNumber
    | some d => readExponentDigits path positive positiveExponent significand start d rest

/-- Whether a letter starts an exponent. -/
def isExponentMark (c : Char) : Bool := c = 'e' || c = 'E'

/-- Reads an exponent, if there is one, and finishes the real. -/
def readTail (path : Path) (positive : Bool) (significand : Nat) (exponent : Int) :
    List Char → Except Fault (Number × List Char)
  | [] => finishReal path positive significand exponent []
  | c :: rest =>
    if isExponentMark c then readExponent path positive significand exponent rest
    else finishReal path positive significand exponent (c :: rest)

/-- Reads the decimals behind a point. Decimals that no longer fit 64 bits are dropped. -/
def readDecimals (path : Path) (positive : Bool) (significand : Nat) (exponent : Int)
    (s : List Char) : Except Fault (Number × List Char) :=
  let (value, count, rest) := takeDigits significand s
  if startsWithDigit rest then
    readTail path positive value (exponent - count) (dropDigits rest).2
  else if count = 0 then
    if rest.isEmpty then faultAt path [] .endOfValue else faultNext path rest .badNumber
  else readTail path positive value (exponent - count) rest

/-- Reads what follows the digits of an integer. -/
def readFraction (path : Path) (positive : Bool) (value : Nat) :
    List Char → Except Fault (Number × List Char)
  | [] => .ok (integer, [])
  | c :: rest =>
    if c = '.' then readDecimals path positive value 0 rest
    else if isExponentMark c then readExponent path positive value 0 rest
    else .ok (integer, c :: rest)
where
  integer : Number :=
    if positive then .natural value
    else if value = 0 ∨ lowestMagnitude < value then .real (-ofNatural value)
    else .negative value

/-- Reads what follows the digits of an integer that no longer fits 64 bits. -/
def readLong (path : Path) (positive : Bool) (value : Nat) (s : List Char) :
    Except Fault (Number × List Char) :=
  let (count, rest) := dropDigits s
  match rest with
  | '.' :: rest => readDecimals path positive value count rest
  | rest => readTail path positive value count rest

/-- Reads a number behind its sign. -/
def readNumber (path : Path) (positive : Bool) (s : List Char) :
    Except Fault (Number × List Char) :=
  match s with
  | [] => faultAt path [] .endOfValue
  | c :: rest =>
    match digit? c with
    | none => faultNext path (c :: rest) .badNumber
    | some 0 =>
      if startsWithDigit rest then faultNext path rest .badNumber
      else readFraction path positive 0 rest
    | some d =>
      let (value, _, rest) := takeDigits d rest
      if startsWithDigit rest then readLong path positive value rest
      else readFraction path positive value rest

end Timetable.Json
