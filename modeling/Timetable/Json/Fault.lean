import Timetable.Decimal.Shortest
import Timetable.Text.Quoted

/-!
# Faults in a JSON text

A text that cannot be read has a fault: what is wrong, where in the text it shows, and which part of
the value was being read. Faults of form (`isData` is false) make the text no JSON; faults of data
mean that a well-formed value is not of the wanted kind.
-/

namespace Timetable.Json

/-- One step from a value to a part of it. -/
inductive Step where
  | key (name : String)
  | index (position : Nat)
  /-- A member whose name could not be read. -/
  | unknown
  deriving DecidableEq, Repr

/-- The steps from the outermost value to a part of it. -/
abbrev Path := List Step

/-- The steps behind the first: members are joined by a point, elements are in brackets. -/
def Path.tail : Path → String
  | [] => ""
  | .key name :: rest => "." ++ name ++ tail rest
  | .index i :: rest => "[" ++ toString i ++ "]" ++ tail rest
  | .unknown :: rest => ".?" ++ tail rest

/-- The text of a path. The outermost value is a single point. -/
def Path.text : Path → String
  | [] => "."
  | .key name :: rest => name ++ tail rest
  | .index i :: rest => "[" ++ toString i ++ "]" ++ tail rest
  | .unknown :: rest => "?" ++ tail rest

/-- A value that was found where another kind was wanted. -/
inductive Found where
  | null
  | flag (value : Bool)
  | integer (value : Int)
  | real (value : Float)
  | text (value : String)
  | list
  | object

/-- Real numbers in messages have an exponent from `1e+16` on and up to `1e-6`. -/
def realLayout : DecimalLayout := ⟨-5, 15⟩

/-- The wording for a value that was found. -/
def Found.describe : Found → String
  | null => "null"
  | flag value => "boolean `" ++ (if value then "true" else "false") ++ "`"
  | integer value => "integer `" ++ toString value ++ "`"
  | real value => "floating point `" ++ realLayout.write value ++ "`"
  | text value => "string " ++ Text.quote value
  | list => "sequence"
  | object => "map"

/-- What is wrong with a text. -/
inductive Cause where
  | endOfValue
  | endOfList
  | endOfObject
  | endOfText
  | expectedColon
  | expectedListEnd
  | expectedObjectEnd
  | expectedWord
  | expectedValue
  | badEscape
  | badNumber
  | numberTooLarge
  | loneSurrogate
  | unpairedEscape
  | trailingComma
  | trailingCharacters
  | keyNotText
  | controlCharacter
  | mismatch (found : Found) (wanted : String)
  | outOfRange (value : Int) (wanted : String)
  | missingField (name : String)
  | duplicateField (name : String)
  | wrongLength (length : Nat) (wanted : String)

namespace Cause

/-- Whether the text is JSON and only its data is not as wanted. -/
def isData : Cause → Bool
  | mismatch .. | outOfRange .. | missingField _ | duplicateField _ | wrongLength .. => true
  | _ => false

/-- The parts of a text before and behind the first occurrence of `mark`. -/
def splitAtMark (mark : List Char) : List Char → Option (List Char × List Char)
  | [] => none
  | c :: rest =>
    if mark.isPrefixOf (c :: rest) then some ([], (c :: rest).drop mark.length)
    else (splitAtMark mark rest).map fun (before, behind) => (c :: before, behind)

/-- The wording of a mismatch. It is made from the sentence `found, expected wanted` by cutting at
the first `, expected `, also when that stands inside of a text that was found. -/
def mismatchReason (found wanted : String) : String :=
  match splitAtMark ", expected ".toList (found ++ ", expected " ++ wanted).toList with
  | some (actual, expected) =>
    "expected " ++ String.ofList expected ++ ", got " ++ String.ofList actual
  | none => "expected " ++ wanted ++ ", got " ++ found

/-- The wording of a cause. -/
def reason : Cause → String
  | endOfValue => "EOF while parsing a value"
  | endOfList => "EOF while parsing a list"
  | endOfObject => "EOF while parsing an object"
  | endOfText => "EOF while parsing a string"
  | expectedColon => "expected `:`"
  | expectedListEnd => "expected `,` or `]`"
  | expectedObjectEnd => "expected `,` or `\x7d`"
  | expectedWord => "expected ident"
  | expectedValue => "expected value"
  | badEscape => "invalid escape"
  | badNumber => "invalid number"
  | numberTooLarge => "number out of range"
  | loneSurrogate => "lone leading surrogate in hex escape"
  | unpairedEscape => "unexpected end of hex escape"
  | trailingComma => "trailing comma"
  | trailingCharacters => "trailing characters"
  | keyNotText => "key must be a string"
  | controlCharacter => "control character (\\u0000-\\u001F) found while parsing a string"
  | mismatch found wanted => mismatchReason found.describe wanted
  | outOfRange value wanted =>
    "invalid value: integer `" ++ toString value ++ "`, expected " ++ wanted
  | missingField name => "missing field `" ++ name ++ "`"
  | duplicateField name => "duplicate field `" ++ name ++ "`"
  | wrongLength length wanted => "invalid length " ++ toString length ++ ", expected " ++ wanted

end Cause

/-- A place in a text: a number of bytes ahead of what is still unread there. -/
structure Spot where
  unread : List Char
  ahead : Nat

/-- Why and where a text cannot be read, and which part of the value was being read. -/
structure Fault where
  path : Path
  spot : Spot
  cause : Cause

/-- A reader takes the path of the value that it reads and what is unread of the text. It gives the
value and what is then unread. -/
abbrev Reader (α : Type) := Path → List Char → Except Fault (α × List Char)

/-- A fault that shows when everything up to `unread` has been read. -/
def faultAt {α : Type} (path : Path) (unread : List Char) (cause : Cause) : Except Fault α :=
  .error ⟨path, ⟨unread, 0⟩, cause⟩

/-- A fault that shows at the next byte of `unread`. -/
def faultNext {α : Type} (path : Path) (unread : List Char) (cause : Cause) : Except Fault α :=
  .error ⟨path, ⟨unread, 1⟩, cause⟩

/-- Blanks between the tokens of a JSON text. -/
def isSpace (c : Char) : Bool := c = ' ' || c = '\n' || c = '\t' || c = '\r'

/-- The text behind any blanks. -/
def skipSpace (s : List Char) : List Char := s.dropWhile isSpace

end Timetable.Json
