import Timetable.Settings.Toml
import Timetable.Text.Blank

/-!
# Values of environment variables

The text of a variable is read as a literal: a flag, a number, a text in quotation marks, a single
character in apostrophes, a list or a table. Anything else is a text without the blanks around it.
A text that starts like a literal and goes on is taken as it stands.
-/

namespace Timetable.Settings.Literal

open Text

/-- Whether a character is a blank of ASCII. -/
def isSpace (c : Char) : Bool := " \t\n\x0c\r".toList.contains c

/-- The text behind any blanks. -/
def skipSpace (s : List Char) : List Char := s.dropWhile isSpace

/-- Whether a character ends a bare word. -/
def isSeparator (c : Char) : Bool := ",\x7b\x7d[]".toList.contains c

/-- Reads a text behind its quotation mark. -/
def readText (s : List Char) : Option (String × List Char) :=
  Toml.readBasic (s.length + 1) [] s

/-- Whether a text is a number with a point. -/
def isReal (s : List Char) : Bool :=
  let unsigned := (Toml.splitSign s).2
  let isMark : Char → Bool := fun c => c = 'e' || c = 'E'
  let mantissa := unsigned.takeWhile fun c => !isMark c
  let power := unsigned.drop mantissa.length
  let whole := mantissa.takeWhile Char.isDigit
  match mantissa.drop whole.length with
  | '.' :: decimals =>
    decimals.all Char.isDigit && !(whole.isEmpty && decimals.isEmpty) &&
      (power.isEmpty || (natural? (Toml.splitSign (power.drop 1)).2).isSome)
  | _ => false

/-- The value of a bare word. A number must fit 64 bits, with a sign or without. -/
def ofWord (s : List Char) : Value :=
  if isReal s then .other
  else
    let (negative, digits) := Toml.splitSign s
    match natural? digits with
    | some n =>
      if negative then if n ≤ 9223372036854775808 then .integer (-n) else .text (String.ofList s)
      else if n ≤ 18446744073709551615 then .integer n
      else .text (String.ofList s)
    | none => .text (String.ofList s)

/-- The text behind `word`, if it starts with it. -/
def skipWord? (word : String) (s : List Char) : Option (List Char) :=
  if word.toList.isPrefixOf s then some (s.drop word.length) else none

/-- Reads a bare word: a flag at its start, or everything up to a separator. -/
def readWord (s : List Char) : Value × List Char :=
  match (skipWord? "true" s).or (skipWord? "false" s) with
  | some rest => (.other, rest)
  | none =>
    let word := s.takeWhile (!isSeparator ·)
    (ofWord (trimChars word), s.drop word.length)

/-- Reads the key of a member. -/
def readKey (s : List Char) : Option (List Char) :=
  match s with
  | '"' :: rest => (readText rest).map (·.2)
  | s =>
    match s.takeWhile Toml.isKeyChar with
    | [] => none
    | key => some (s.drop key.length)

mutual

/-- Reads a literal. `fuel` bounds the readers that are called in a row. -/
def read : Nat → List Char → Option (Value × List Char)
  | 0, _ => none
  | fuel + 1, s => do
    let (value, rest) ← match skipSpace s with
      | '\x7b' :: rest => (readMembers fuel rest).map fun rest => (Value.other, rest)
      | '[' :: rest => (readElements fuel rest).map fun rest => (Value.other, rest)
      | '"' :: rest => (readText rest).map fun (t, rest) => (Value.text t, rest)
      | '\'' :: c :: '\'' :: rest => some (Value.text (String.ofList [c]), rest)
      | '\'' :: _ => none
      | s => some (readWord s)
    some (value, skipSpace rest)

/-- Reads the elements of a list up to its closing bracket. -/
def readElements : Nat → List Char → Option (List Char)
  | 0, _ => none
  | fuel + 1, s =>
    match s with
    | ']' :: rest => some rest
    | s => do
      let (_, rest) ← read fuel s
      match rest with
      | ',' :: rest => readElements fuel rest
      | ']' :: rest => some rest
      | _ => none

/-- Reads the members of a table up to its closing brace. -/
def readMembers : Nat → List Char → Option (List Char)
  | 0, _ => none
  | fuel + 1, s =>
    match s with
    | '\x7d' :: rest => some rest
    | s => do
      let rest ← readKey (skipSpace s)
      let rest ← Toml.expect '=' (skipSpace rest)
      let (_, rest) ← read fuel (skipSpace rest)
      match rest with
      | ',' :: rest => readMembers fuel rest
      | '\x7d' :: rest => some rest
      | _ => none

end

/-- The value of a variable. -/
def ofText (s : String) : Value :=
  match read (2 * s.length + 2) s.toList with
  | some (value, []) => value
  | _ => .text s

end Timetable.Settings.Literal
