import Timetable.Text.Case

/-!
# Media types

A media type has a type, a subtype that may end in a suffix behind a plus sign, and parameters. The
only question that is asked of one is whether it means JSON.
-/

namespace Timetable.Api.MediaType

/-- Whether a character may stand in the words of a media type. -/
def isWordChar (c : Char) : Bool := c.isAlphanum || "!#$%&'*+-.^_\x60|~".toList.contains c

/-- Whether a character may stand in a field of a request. -/
def isFieldChar (c : Char) : Bool := c = '\t' || (0x20 ≤ c.toNat && c.toNat < 0x7f)

/-- Whether a text is a value between quotation marks, and what follows it. -/
def skipQuoted : List Char → Option (List Char)
  | [] => none
  | '"' :: rest => some rest
  | '\\' :: c :: rest => if isFieldChar c then skipQuoted rest else none
  | c :: rest => if isFieldChar c then skipQuoted rest else none

/-- What follows the value of a parameter. -/
def skipValue : List Char → Option (List Char)
  | '"' :: rest => skipQuoted rest
  | s => some (s.dropWhile isWordChar)

/-- Whether a text is parameters, each behind a semicolon. Every round consumes a character. -/
def areParameters : Nat → List Char → Bool
  | _, [] => true
  | 0, _ => false
  | fuel + 1, c :: rest =>
    c = ';' &&
      (let s := rest.dropWhile (· = ' ')
      let name := s.takeWhile isWordChar
      match s.drop name.length with
      | '=' :: value =>
        !name.isEmpty && (match skipValue value with
          | some rest => areParameters fuel rest
          | none => false)
      | _ => false)

/-- The subtype up to its last plus sign, and the suffix behind it. A plus sign at the start begins
no suffix. -/
def splitSuffix (subtype : List Char) : List Char × Option (List Char) :=
  if (subtype.drop 1).contains '+' then
    let suffix := (subtype.reverse.takeWhile (· ≠ '+')).reverse
    (subtype.take (subtype.length - suffix.length - 1), some suffix)
  else (subtype, none)

/-- Whether a text is a media type that means JSON. -/
def isJson (s : String) : Bool :=
  let s := s.toList.map Char.toLower
  let kind := s.takeWhile isWordChar
  match s.drop kind.length with
  | '/' :: rest =>
    let subtype := rest.takeWhile isWordChar
    let (name, suffix) := splitSuffix subtype
    kind = "application".toList && s.all isFieldChar &&
      (name = "json".toList || suffix = some "json".toList) &&
      areParameters rest.length (rest.drop subtype.length)
  | _ => false

end Timetable.Api.MediaType
