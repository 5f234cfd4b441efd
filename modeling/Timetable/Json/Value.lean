import Timetable.Json.Fault

/-!
# JSON values and their text

Values that the program writes. The members of an object keep their order. A value has a compact
text on one line and an indented one.
-/

namespace Timetable.Json

/-- A JSON value. -/
inductive Value where
  | null
  | flag (value : Bool)
  | integer (value : Int)
  | real (value : Float)
  | text (value : String)
  | list (elements : List Value)
  | object (members : List (String × Value))

namespace Value

/-- The value of an optional part: null when there is none. -/
def ofOption {α : Type} (value : α → Value) : Option α → Value
  | none => null
  | some x => value x

end Value

/-- A digit in lower-case base 16. -/
def hexDigit (n : Nat) : Char := Nat.digitChar n

/-- One character of a text: the quotation mark, the backslash and control characters are
escaped. -/
def writeChar (c : Char) : List Char :=
  if c = '"' then ['\\', '"']
  else if c = '\\' then ['\\', '\\']
  else if c = '\x08' then ['\\', 'b']
  else if c = '\x0c' then ['\\', 'f']
  else if c = '\n' then ['\\', 'n']
  else if c = '\r' then ['\\', 'r']
  else if c = '\t' then ['\\', 't']
  else if c.toNat < 0x20 then
    ['\\', 'u', '0', '0', hexDigit (c.toNat / 16), hexDigit (c.toNat % 16)]
  else [c]

/-- A text between quotation marks. -/
def writeText (s : String) : String := String.ofList ('"' :: s.toList.flatMap writeChar ++ ['"'])

/-- A number, flag, text or null. Lists and objects are left to the layout. -/
def writeScalar : Value → String
  | .null => "null"
  | .flag value => if value then "true" else "false"
  | .integer value => toString value
  | .real value => realLayout.write value
  | .text value => writeText value
  | .list _ | .object _ => ""

mutual

/-- The text of a value on one line, without blanks. -/
def Value.compact : Value → String
  | .list elements => "[" ++ compactElements elements ++ "]"
  | .object members => "\x7b" ++ compactMembers members ++ "\x7d"
  | value => writeScalar value

/-- The elements of a list with commas between them. -/
def compactElements : List Value → String
  | [] => ""
  | [value] => value.compact
  | value :: rest => value.compact ++ "," ++ compactElements rest

/-- The members of an object with commas between them. -/
def compactMembers : List (String × Value) → String
  | [] => ""
  | [(name, value)] => writeText name ++ ":" ++ value.compact
  | (name, value) :: rest =>
    writeText name ++ ":" ++ value.compact ++ "," ++ compactMembers rest

end

/-- A new line with two blanks for every level. -/
def newLine (level : Nat) : String := "\n" ++ String.ofList (List.replicate (2 * level) ' ')

mutual

/-- The indented text of a value inside of `level` lists and objects. Every element and every member
has a line of its own; an empty list or object stays on one line. -/
def Value.indented (level : Nat) : Value → String
  | .list [] => "[]"
  | .list elements => "[" ++ indentedElements (level + 1) elements ++ newLine level ++ "]"
  | .object [] => "\x7b\x7d"
  | .object members => "\x7b" ++ indentedMembers (level + 1) members ++ newLine level ++ "\x7d"
  | value => writeScalar value

/-- The elements of a list, each on its line. -/
def indentedElements (level : Nat) : List Value → String
  | [] => ""
  | [value] => newLine level ++ value.indented level
  | value :: rest => newLine level ++ value.indented level ++ "," ++ indentedElements level rest

/-- The members of an object, each on its line. -/
def indentedMembers (level : Nat) : List (String × Value) → String
  | [] => ""
  | [(name, value)] => newLine level ++ writeText name ++ ": " ++ value.indented level
  | (name, value) :: rest =>
    newLine level ++ writeText name ++ ": " ++ value.indented level ++ ","
      ++ indentedMembers level rest

end

/-- The indented text of a value. -/
def Value.pretty (value : Value) : String := value.indented 0

end Timetable.Json
