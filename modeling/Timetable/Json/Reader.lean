import Timetable.Json.Skip

/-!
# Readers for JSON values of a known kind

Each reader knows the kind of value that it wants, skips the blanks in front of it, and says what it
found when it is another kind. `Layout` describes a record with named fields, which may be written
as an object or as a list of its fields in order.
-/

namespace Timetable.Json

/-- The fault of a value of another kind than `wanted`. A value that is not even well formed has the
fault of its form. Lists and objects are not read. -/
def mismatch {α : Type} (path : Path) (wanted : String) (s : List Char) : Except Fault α :=
  match s with
  | [] => faultNext path [] .expectedValue
  | c :: rest =>
    if c = 'n' then word .null "ull" rest
    else if c = 't' then word (.flag true) "rue" rest
    else if c = 'f' then word (.flag false) "alse" rest
    else if c = '-' then number (readNumber path false rest)
    else if (Text.digit? c).isSome then number (readNumber path true (c :: rest))
    else if c = '"' then
      match readText path rest with
      | .error fault => .error fault
      | .ok (text, rest) => faultAt path rest (.mismatch (.text text) wanted)
    else if c = '[' then faultAt path (c :: rest) (.mismatch .list wanted)
    else if c = '\x7b' then faultAt path (c :: rest) (.mismatch .object wanted)
    else faultNext path (c :: rest) .expectedValue
where
  word (found : Found) (letters : String) (rest : List Char) : Except Fault α :=
    match readWord path letters.toList rest with
    | .error fault => .error fault
    | .ok rest => faultAt path rest (.mismatch found wanted)
  number : Except Fault (Number × List Char) → Except Fault α
    | .error fault => .error fault
    | .ok (.natural n, rest) => faultAt path rest (.mismatch (.integer n) wanted)
    | .ok (.negative n, rest) => faultAt path rest (.mismatch (.integer (-n)) wanted)
    | .ok (.real x, rest) => faultAt path rest (.mismatch (.real x) wanted)

/-- Reads a text. -/
def text : Reader String := fun path s =>
  match skipSpace s with
  | [] => faultAt path [] .endOfValue
  | '"' :: rest => readText path rest
  | s => mismatch path "a string" s

/-- Reads a flag. -/
def flag : Reader Bool := fun path s =>
  match skipSpace s with
  | [] => faultAt path [] .endOfValue
  | 't' :: rest => (readWord path "rue".toList rest).map (true, ·)
  | 'f' :: rest => (readWord path "alse".toList rest).map (false, ·)
  | s => mismatch path "a boolean" s

/-- The integer that was written, if it is one and lies between the bounds. -/
def checkInteger (path : Path) (low high : Int) (wanted : String) :
    Number × List Char → Except Fault (Int × List Char)
  | (.natural n, rest) => check n rest
  | (.negative n, rest) => check (-n) rest
  | (.real x, rest) => faultAt path rest (.mismatch (.real x) wanted)
where
  check (n : Int) (rest : List Char) : Except Fault (Int × List Char) :=
    if low ≤ n ∧ n ≤ high then .ok (n, rest) else faultAt path rest (.outOfRange n wanted)

/-- Reads an integer between bounds. -/
def integer (low high : Int) (wanted : String) : Reader Int := fun path s =>
  match skipSpace s with
  | [] => faultAt path [] .endOfValue
  | c :: rest =>
    if c = '-' then (readNumber path false rest).bind (checkInteger path low high wanted)
    else if (Text.digit? c).isSome then
      (readNumber path true (c :: rest)).bind (checkInteger path low high wanted)
    else mismatch path wanted (c :: rest)

/-- Reads a value that may be null. -/
def nullable {α : Type} (read : Reader α) : Reader (Option α) := fun path s =>
  match skipSpace s with
  | 'n' :: rest => (readWord path "ull".toList rest).map (none, ·)
  | s => (read path s).map fun (value, rest) => (some value, rest)

/-! ## Lists -/

/-- Goes to the next element of a list. None at its closing bracket. -/
def nextElement (path : Path) (first : Bool) (s : List Char) :
    Except Fault (Option (List Char)) :=
  match skipSpace s with
  | [] => faultAt path [] .endOfList
  | c :: rest =>
    if c = ']' then .ok none
    else if first then .ok (some (c :: rest))
    else if c = ',' then
      match skipSpace rest with
      | [] => faultAt path [] .endOfValue
      | ']' :: rest => faultNext path (']' :: rest) .trailingComma
      | rest => .ok (some rest)
    else faultNext path (c :: rest) .expectedListEnd

/-- Reads the closing bracket of a list. -/
def closeList (path : Path) (s : List Char) : Except Fault (List Char) :=
  match skipSpace s with
  | [] => faultAt path [] .endOfList
  | c :: rest =>
    if c = ']' then .ok rest
    else if c = ',' then
      match skipSpace rest with
      | ']' :: rest => faultNext path (']' :: rest) .trailingComma
      | rest => faultNext path rest .trailingCharacters
    else faultNext path (c :: rest) .trailingCharacters

/-- Reads the elements of a list from the one at `position` on. Every element consumes a character,
so the length of the text and one more is enough fuel. -/
def readElements {α : Type} (read : Reader α) (path : Path) :
    Nat → Nat → List Char → Except Fault (List α × List Char)
  | 0, _, s => faultAt path s .endOfList
  | fuel + 1, position, s =>
    match nextElement path (position = 0) s with
    | .error fault => .error fault
    | .ok none => .ok ([], s)
    | .ok (some s) =>
      match read (path ++ [.index position]) s with
      | .error fault => .error fault
      | .ok (value, rest) =>
        (readElements read path fuel (position + 1) rest).map fun (values, rest) =>
          (value :: values, rest)

/-- Reads a list of values of one kind. -/
def list {α : Type} (read : Reader α) : Reader (List α) := fun path s =>
  match skipSpace s with
  | [] => faultAt path [] .endOfValue
  | '[' :: rest =>
    match readElements read path (rest.length + 1) 0 rest with
    | .error fault => .error fault
    | .ok (values, rest) => (closeList path rest).map (values, ·)
  | s => mismatch path "a sequence" s

/-! ## Records -/

/-- One field of a record that is being read into a draft of type `σ`. -/
structure Field (σ : Type) where
  name : String
  /-- Whether the record cannot be made without the field. -/
  required : Bool
  /-- Whether the record cannot be written as a list without the field. -/
  neededInList : Bool
  /-- Whether the draft already holds the field. -/
  filled : σ → Bool
  /-- Reads the value of the field and puts it into the draft. -/
  read : Reader (σ → σ)

/-- The field `name`, read by `read`, looked up in a draft by `get` and put there by `set`. -/
def Field.of {σ α : Type} (name : String) (required : Bool) (get : σ → Option α)
    (set : α → σ → σ) (read : Reader α) : Field σ where
  name := name
  required := required
  neededInList := required
  filled draft := (get draft).isSome
  read path s := (read path s).map fun (value, rest) => (set value, rest)

/-- A field that only a record written as a list must hold. -/
def Field.inListOnly {σ : Type} (f : Field σ) : Field σ :=
  { f with required := false, neededInList := true }

/-- How a record of type `α` is read, field by field, into a draft of type `σ`. -/
structure Layout (σ α : Type) where
  /-- The name of the record in messages. -/
  title : String
  fields : List (Field σ)
  blank : σ
  /-- The record that a draft makes, once it holds every required field. -/
  finish : σ → Option α

namespace Layout

variable {σ α : Type}

/-- The record in messages. -/
def wanted (l : Layout σ α) : String := "struct " ++ l.title

/-- The record with its number of fields in messages. -/
def wantedLength (l : Layout σ α) : String :=
  l.wanted ++ " with " ++ toString l.fields.length
    ++ (if l.fields.length = 1 then " element" else " elements")

/-- Makes the record of a draft. Of the required fields that are missing, the first is named. -/
def close (l : Layout σ α) (path : Path) (draft : σ) (rest : List Char) :
    Except Fault (α × List Char) :=
  match l.fields.find? fun f => f.required && !f.filled draft with
  | some f => faultAt path rest (.missingField f.name)
  | none =>
    match l.finish draft with
    | some value => .ok (value, rest)
    | none => faultAt path rest (.missingField l.title)

/-- Reads the fields of a record that is written as a list, from the one at `position` on. -/
def readPositions (l : Layout σ α) (path : Path) :
    List (Field σ) → Nat → σ → List Char → Except Fault (σ × List Char)
  | [], _, draft, s => .ok (draft, s)
  | f :: fields, position, draft, s =>
    match nextElement path (position = 0) s with
    | .error fault => .error fault
    | .ok none =>
      if f.neededInList then
        -- the fault shows behind the closing bracket
        faultAt path ((skipSpace s).drop 1) (.wrongLength position l.wantedLength)
      else readPositions l path fields (position + 1) draft s
    | .ok (some s) =>
      match f.read (path ++ [.index position]) s with
      | .error fault => .error fault
      | .ok (put, rest) => readPositions l path fields (position + 1) (put draft) rest

/-- Goes to the name of the next member of an object, behind its quotation mark. None at the closing
brace. -/
def nextName (path : Path) (first : Bool) (s : List Char) :
    Except Fault (Option (List Char)) :=
  match skipSpace s with
  | [] => faultAt path [] .endOfObject
  | c :: rest =>
    if c = '\x7d' then .ok none
    else if first then
      if c = '"' then .ok (some rest) else faultNext path (c :: rest) .keyNotText
    else if c = ',' then
      match skipSpace rest with
      | [] => faultAt path [] .endOfValue
      | '"' :: rest => .ok (some rest)
      | '\x7d' :: rest => faultNext path ('\x7d' :: rest) .trailingComma
      | rest => faultNext path rest .keyNotText
    else faultNext path (c :: rest) .expectedObjectEnd

/-- Reads the colon behind the name of a member. -/
def readColon (path : Path) (s : List Char) : Except Fault (List Char) :=
  match skipSpace s with
  | [] => faultAt path [] .endOfObject
  | ':' :: rest => .ok rest
  | rest => faultNext path rest .expectedColon

/-- Where the fault of a field that comes twice shows: behind its name, the blanks that follow it,
and a closing brace. -/
def behindName (s : List Char) : List Char :=
  match skipSpace s with
  | '\x7d' :: rest => rest
  | rest => rest

/-- Reads the value of a member into the draft; the value of an unknown member is skipped. -/
def readMember (l : Layout σ α) (path : Path) (name : String) (draft : σ) (s : List Char) :
    Except Fault (σ × List Char) :=
  match l.fields.find? (·.name = name) with
  | some f =>
    if f.filled draft then faultAt path (behindName s) (.duplicateField name)
    else
      match readColon path s with
      | .error fault => .error fault
      | .ok rest => (f.read (path ++ [.key name]) rest).map fun (put, rest) => (put draft, rest)
  | none =>
    match readColon path s with
    | .error fault => .error fault
    | .ok rest => (skipValue (path ++ [.key name]) rest).map (draft, ·)

/-- Reads the members of an object up to its closing brace. Every member consumes a character, so
the length of the text and one more is enough fuel. -/
def readMembers (l : Layout σ α) (path : Path) :
    Nat → Bool → σ → List Char → Except Fault (σ × List Char)
  | 0, _, _, s => faultAt path s .endOfObject
  | fuel + 1, first, draft, s =>
    match nextName (path ++ [.unknown]) first s with
    | .error fault => .error fault
    | .ok none => .ok (draft, s)
    | .ok (some s) =>
      match readText (path ++ [.unknown]) s with
      | .error fault => .error fault
      | .ok (name, rest) =>
        match l.readMember path name draft rest with
        | .error fault => .error fault
        | .ok (draft, rest) => readMembers l path fuel false draft rest

/-- Reads a record. -/
def read (l : Layout σ α) : Reader α := fun path s =>
  match skipSpace s with
  | [] => faultAt path [] .endOfValue
  | '[' :: rest =>
    match l.readPositions path l.fields 0 l.blank rest with
    | .error fault => .error fault
    | .ok (draft, rest) =>
      match closeList path rest with
      | .error fault => .error fault
      | .ok rest => l.close path draft rest
  | '\x7b' :: rest =>
    match l.readMembers path (rest.length + 1) true l.blank rest with
    | .error fault => .error fault
    | .ok (draft, rest) => l.close path draft ((skipSpace rest).drop 1)
  | s => mismatch path l.wanted s

end Layout

end Timetable.Json
