import Timetable.Json.Token

/-!
# Skipping values

Members that nobody asked for are skipped. Skipping checks the form of the value, but neither the
size of its numbers nor the pairing of its surrogates, and nesting may be as deep as it likes: the
open lists and objects are kept on a stack.
-/

namespace Timetable.Json

/-- An open list or object. -/
inductive Frame where
  | list | object
  deriving DecidableEq, Repr

/-- Skips an escape behind its backslash. -/
def skipEscape (path : Path) (s : List Char) :
    Except Fault { r : List Char // r.length < s.length } :=
  match s with
  | [] => faultAt path [] .endOfText
  | e :: rest =>
    if (simpleEscape? e).isSome then .ok ⟨rest, Nat.lt_succ_self _⟩
    else if e = 'u' then
      match readQuad path rest with
      | .error fault => .error fault
      | .ok (_, ⟨rest', shorter⟩) => .ok ⟨rest', Nat.lt_succ_of_lt shorter⟩
    else faultNext path (e :: rest) .badEscape

/-- Skips a text behind its opening quotation mark. -/
def skipText (path : Path) (s : List Char) : Except Fault (List Char) :=
  match s with
  | [] => faultAt path [] .endOfText
  | c :: rest =>
    if c = '"' then .ok rest
    else if c = '\\' then
      match skipEscape path rest with
      | .error fault => .error fault
      | .ok ⟨rest', _⟩ => skipText path rest'
    else if c.toNat < 0x20 then faultAt path (c :: rest) .controlCharacter
    else skipText path rest
termination_by s.length
decreasing_by all_goals simp only [List.length_cons]; omega

/-- Skips an exponent behind its letter. -/
def skipExponent (path : Path) (s : List Char) : Except Fault (List Char) :=
  let s := match s with
    | '+' :: rest => rest
    | '-' :: rest => rest
    | s => s
  match s with
  | [] => faultAt path [] .badNumber
  | c :: rest =>
    if (Text.digit? c).isSome then .ok (dropDigits rest).2
    else faultNext path (c :: rest) .badNumber

/-- Skips an exponent, if there is one. -/
def skipTail (path : Path) : List Char → Except Fault (List Char)
  | [] => .ok []
  | c :: rest => if isExponentMark c then skipExponent path rest else .ok (c :: rest)

/-- Skips what follows the digits of an integer. -/
def skipFraction (path : Path) (s : List Char) : Except Fault (List Char) :=
  match s with
  | '.' :: rest =>
    if startsWithDigit rest then skipTail path (dropDigits rest).2
    else faultNext path rest .badNumber
  | s => skipTail path s

/-- Skips a number behind its sign. -/
def skipNumber (path : Path) (s : List Char) : Except Fault (List Char) :=
  match s with
  | [] => faultAt path [] .badNumber
  | c :: rest =>
    match Text.digit? c with
    | none => faultNext path (c :: rest) .badNumber
    | some 0 =>
      if startsWithDigit rest then faultNext path rest .badNumber else skipFraction path rest
    | some _ => skipFraction path (dropDigits rest).2

/-- Skips a value that is no list and no object. -/
def skipScalar (path : Path) (s : List Char) : Except Fault (List Char) :=
  match s with
  | [] => faultAt path [] .endOfValue
  | c :: rest =>
    if c = 'n' then readWord path "ull".toList rest
    else if c = 't' then readWord path "rue".toList rest
    else if c = 'f' then readWord path "alse".toList rest
    else if c = '-' then skipNumber path rest
    else if (Text.digit? c).isSome then skipNumber path (c :: rest)
    else if c = '"' then skipText path rest
    else faultNext path (c :: rest) .expectedValue

/-- Skips the name of a member and its colon. -/
def skipName (path : Path) (s : List Char) : Except Fault (List Char) :=
  match skipSpace s with
  | [] => faultAt path [] .endOfObject
  | '"' :: rest =>
    match skipText path rest with
    | .error fault => .error fault
    | .ok rest =>
      match skipSpace rest with
      | [] => faultAt path [] .endOfObject
      | ':' :: rest => .ok rest
      | rest => faultNext path rest .expectedColon
  | rest => faultNext path rest .keyNotText

/-- The fault of a text that ends in an open list or object. -/
def Frame.atEnd : Frame → Cause
  | list => .endOfList
  | object => .endOfObject

/-- The fault of a value that is followed by neither a comma nor the end of its list or object. -/
def Frame.unfinished : Frame → Cause
  | list => .expectedListEnd
  | object => .expectedObjectEnd

/-- The character that ends a list or object. -/
def Frame.close : Frame → Char
  | list => ']'
  | object => '\x7d'

/-- Goes to the next value of a list, or of an object behind its name. -/
def Frame.enter (path : Path) (frame : Frame) (s : List Char) : Except Fault (List Char) :=
  match frame with
  | list => .ok s
  | object => skipName path s

/-- Where skipping stands: before a value, or behind one. -/
inductive SkipState where
  | before
  | behind

/-- Skips to the end of a value inside of the open lists and objects of `stack`, innermost first.
Every round but the last consumes a character, so the length of the text and one more is enough
fuel. -/
def skipLoop (path : Path) : Nat → SkipState → List Frame → List Char → Except Fault (List Char)
  | 0, _, _, s => faultAt path s .endOfValue
  | fuel + 1, .before, stack, s =>
    match skipSpace s with
    | '[' :: rest => skipOpen path fuel .list stack rest
    | '\x7b' :: rest => skipOpen path fuel .object stack rest
    | rest =>
      match skipScalar path rest with
      | .error fault => .error fault
      | .ok rest => skipLoop path fuel .behind stack rest
  | _ + 1, .behind, [], s => .ok s
  | fuel + 1, .behind, frame :: stack, s =>
    match skipSpace s with
    | [] => faultAt path [] frame.atEnd
    | c :: rest =>
      if c = ',' then
        match frame.enter path rest with
        | .error fault => .error fault
        | .ok rest => skipLoop path fuel .before (frame :: stack) rest
      else if c = frame.close then skipLoop path fuel .behind stack rest
      else faultNext path (c :: rest) frame.unfinished
where
  /-- Goes behind the opening bracket of a list or object. -/
  skipOpen (path : Path) (fuel : Nat) (frame : Frame) (stack : List Frame) (s : List Char) :
      Except Fault (List Char) :=
    match skipSpace s with
    | [] => faultAt path [] frame.atEnd
    | c :: rest =>
      if c = frame.close then skipLoop path fuel .behind stack rest
      else
        match frame.enter path (c :: rest) with
        | .error fault => .error fault
        | .ok rest => skipLoop path fuel .before (frame :: stack) rest

/-- Skips one value. -/
def skipValue (path : Path) (s : List Char) : Except Fault (List Char) :=
  skipLoop path (s.length + 1) .before [] s

end Timetable.Json
