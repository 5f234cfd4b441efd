import Timetable.Json.Reader

/-!
# Decoding with located errors

Decoding reads the first value of a text and ignores what follows it. An error names the part of
the value, the line and the byte column, and shows an excerpt of the line with a mark under the
place.
-/

namespace Timetable.Json

/-- A place in a text: its line, from one on, and the number of bytes of the line before it. -/
structure Position where
  line : Nat
  column : Nat
  deriving DecidableEq, Repr

/-- The place behind one more character. -/
def Position.next (p : Position) (c : Char) : Position :=
  if c = '\n' then ⟨p.line + 1, 0⟩ else ⟨p.line, p.column + c.utf8Size⟩

/-- The place a number of bytes further on, but not beyond the end of the text. -/
def Position.ahead (p : Position) : Nat → List Char → Position
  | _, [] => p
  | 0, _ => p
  | n + 1, c :: rest =>
    if c.utf8Size ≤ n + 1 then (p.next c).ahead (n + 1 - c.utf8Size) rest
    else ⟨p.line, p.column + (n + 1)⟩

/-- The place of a spot in the text that it belongs to. -/
def Spot.position (spot : Spot) (body : List Char) : Position :=
  let before := body.take (body.length - spot.unread.length)
  (before.foldl Position.next ⟨1, 0⟩).ahead spot.ahead spot.unread

/-- Why a text could not be decoded. -/
structure DecodeError where
  path : String
  line : Nat
  column : Nat
  reason : String
  excerpt : String
  deriving DecidableEq, Repr

/-- The full wording of an error. -/
def DecodeError.message (e : DecodeError) : String :=
  let place := if e.path = "" ∨ e.path = "." then "" else "at path '" ++ e.path ++ "': "
  place ++ e.reason ++ " (line " ++ toString e.line ++ " col " ++ toString e.column ++ ")\n"
    ++ e.excerpt

/-- The lines of a text. A line ends with a line feed, and a carriage return before it belongs to
the end. -/
def linesOf : List Char → List (List Char)
  | [] => []
  | s => go s []
where
  /-- The lines of a text of which `line` has been read, last character first. -/
  go : List Char → List Char → List (List Char)
    | [], line => if line.isEmpty then [] else [line.reverse]
    | '\n' :: rest, '\r' :: line => line.reverse :: go rest []
    | '\n' :: rest, line => line.reverse :: go rest []
    | c :: rest, line => go rest (c :: line)

/-- The part of a line that an excerpt shows, and the place of the mark. -/
structure Window where
  start : Nat
  stop : Nat
  mark : Nat
  deriving DecidableEq, Repr

/-- The window of `width` characters around a column of a line with `length` characters. -/
def windowAt (length column width : Nat) : Window :=
  let mark := min (column - 1) length
  ⟨mark - width / 2, min (mark + width / 2) length, mark⟩

/-- The line with this number, counted from one; empty when there is none. -/
def lineAt (body : String) (line : Nat) : List Char := (linesOf body.toList)[line - 1]?.getD []

/-- The failing line around a column, and under it a mark. -/
def excerpt (body : String) (line column width : Nat) : String :=
  match lineAt body line with
  | [] => "(empty line)"
  | text =>
    let w := windowAt text.length column width
    "..." ++ String.ofList ((text.take w.stop).drop w.start) ++ "...\n   "
      ++ String.ofList (List.replicate (w.mark - w.start) ' ') ++ "^"

/-- The number of characters that an excerpt shows. -/
def excerptWidth : Nat := 24

/-- The error of a fault in a text. -/
def Fault.toError (fault : Fault) (body : String) : DecodeError :=
  let position := fault.spot.position body.toList
  { path := fault.path.text
    line := position.line
    column := position.column
    reason := fault.cause.reason
    excerpt := excerpt body position.line position.column excerptWidth }

/-- Decodes the first value of a text. -/
def decode {α : Type} (read : Reader α) (body : String) : Except DecodeError α :=
  match read [] body.toList with
  | .ok (value, _) => .ok value
  | .error fault => .error (fault.toError body)

/-- Decodes a text that holds one value and nothing else. -/
def decodeWhole {α : Type} (read : Reader α) (body : String) : Except Fault α :=
  match read [] body.toList with
  | .error fault => .error fault
  | .ok (value, rest) =>
    match skipSpace rest with
    | [] => .ok value
    | rest => faultNext [] rest .trailingCharacters

end Timetable.Json
