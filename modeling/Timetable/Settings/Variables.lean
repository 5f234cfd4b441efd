import Timetable.Text.Blank
import Timetable.Text.Case

/-!
# Files of environment variables

A file can give variables to a program: one `NAME=value` a line, with comments, two kinds of
quotation marks and references to other variables. A variable that is already set keeps its value.
Reading stops at the first line that cannot be read; what stands before it counts.
-/

namespace Timetable.Settings

open Text

/-- Environment variables with their values. -/
abbrev Variables := List (String × String)

namespace Variables

/-- The value of a variable. -/
def value? (name : String) (vars : Variables) : Option String :=
  (vars.find? (·.1 = name)).map (·.2)

/-- Whether a variable is set. -/
def has (name : String) (vars : Variables) : Bool := vars.any (·.1 = name)

/-! ## Logical lines -/

/-- Where a scan of a line stands. -/
inductive Scan where
  | plain
  | afterBlank
  | escaped
  | double
  | doubleEscaped
  | single
  | singleEscaped
  deriving DecidableEq, Repr

/-- Where the scan stands behind one more character; none at the start of a comment. -/
def Scan.next (state : Scan) (c : Char) : Option Scan :=
  match state with
  | .plain =>
    if isBlank c && c ≠ '\n' && c ≠ '\r' then some .afterBlank else some (inText c)
  | .afterBlank => if c = '#' then none else some (inText c)
  | .escaped => some .plain
  | .double => some (if c = '\\' then .doubleEscaped else if c = '"' then .plain else .double)
  | .doubleEscaped => some .double
  | .single => some (if c = '\\' then .singleEscaped else if c = '\'' then .plain else .single)
  | .singleEscaped => some .single
where
  inText (c : Char) : Scan :=
    if c = '\\' then .escaped else if c = '"' then .double else if c = '\'' then .single else .plain

/-- What a scan of a line comes to: where it stands at the end, or what precedes a comment. -/
inductive Scanned where
  | ended (state : Scan)
  | comment (before : List Char)

/-- Scans a line; `done` holds the characters so far, the last one first. -/
def scanLine (state : Scan) (done : List Char) : List Char → Scanned
  | [] => .ended state
  | c :: rest =>
    match state.next c with
    | none => .comment done.reverse
    | some state => scanLine state (c :: done) rest

/-- Splits a text behind its line ends. -/
def cutLines : List Char → List (List Char)
  | [] => []
  | c :: rest =>
    if c = '\n' then [c] :: cutLines rest
    else
      match cutLines rest with
      | [] => [[c]]
      | line :: lines => (c :: line) :: lines

/-- The line without its line end. -/
def dropEnd (line : List Char) : List Char :=
  match line.reverse with
  | '\n' :: '\r' :: rest => rest.reverse
  | '\n' :: rest => rest.reverse
  | _ => line

/-- Joins lines to logical lines: one that ends inside of quotation marks, behind a backslash or
behind a blank goes on. None stands for an end that is missing. -/
def logicalLines (state : Scan) (held : List Char) : List (List Char) → List (Option (List Char))
  | [] => if state = .plain then [] else [none]
  | line :: rest =>
    let whole := held ++ line
    if (whole.dropWhile isBlank).head? = some '#' then some [] :: logicalLines .plain [] rest
    else
      match scanLine state [] line with
      | .comment before => some (held ++ before) :: logicalLines .plain [] rest
      | .ended .plain => some (dropEnd whole) :: logicalLines .plain [] rest
      | .ended state => logicalLines state whole rest

/-! ## Values -/

/-- Whether a variable is being named inside of a value. -/
inductive Naming where
  | no
  | bare (name : List Char)
  | braced (name : List Char)
  deriving DecidableEq, Repr

/-- Where the reading of a value stands. -/
structure Reading where
  single : Bool := false
  double : Bool := false
  escaped : Bool := false
  atEnd : Bool := false
  naming : Naming := .no
  /-- The characters of the value so far, the last one first. -/
  done : List Char := []

/-- Appends the value of a variable; one that is not set is empty. -/
def Reading.insert (r : Reading) (known : Variables) (name : List Char) : Reading :=
  let value := (known.value? (String.ofList name.reverse)).getD ""
  { r with done := value.toList.reverse ++ r.done, naming := .no }

/-- Whether a character may stand in a name that is referred to. -/
def isNameChar (c : Char) : Bool := c.isAlphanum

/-- Reads a character outside of names and escapes. -/
def Reading.takeText (r : Reading) (c : Char) : Reading :=
  if c = '$' then { r with naming := .bare [] }
  else if r.double then
    if c = '"' then { r with double := false }
    else if c = '\\' then { r with escaped := true }
    else { r with done := c :: r.done }
  else if c = '\'' then { r with single := true }
  else if c = '"' then { r with double := true }
  else if c = '\\' then { r with escaped := true }
  else if c = ' ' || c = '\t' then { r with atEnd := true }
  else { r with done := c :: r.done }

/-- Reads a character behind a dollar sign. -/
def Reading.takeName (r : Reading) (known : Variables) (c : Char) : Reading :=
  match r.naming with
  | .no => r.takeText c
  | .bare name =>
    if isNameChar c then { r with naming := .bare (c :: name) }
    else if c = '\x7b' && name.isEmpty then { r with naming := .braced [] }
    else
      let r := r.insert known name
      if c = '$' then { r with naming := .bare [] } else { r with done := c :: r.done }
  | .braced name =>
    if c = '\x7d' then r.insert known name else { r with naming := .braced (c :: name) }

/-- Reads the characters of a value. -/
def readChars (known : Variables) (r : Reading) : List Char → Option Reading
  | [] => some r
  | c :: rest =>
    if r.atEnd then
      if c = ' ' || c = '\t' then readChars known r rest
      else if c = '#' then some r
      else none
    else if r.escaped then
      if "\\'\"$ ".toList.contains c then
        readChars known { r with escaped := false, done := c :: r.done } rest
      else if c = 'n' then readChars known { r with escaped := false, done := '\n' :: r.done } rest
      else none
    else if r.single then
      if c = '\'' then readChars known { r with single := false } rest
      else readChars known { r with done := c :: r.done } rest
    else if r.naming = .no then readChars known (r.takeText c) rest
    else readChars known (r.takeName known c) rest

/-- Reads a value. -/
def readValue (known : Variables) (s : List Char) : Option String :=
  match readChars known {} s with
  | none => none
  | some r =>
    if r.single || r.double then none
    else
      match r.naming with
      | .braced _ => none
      | .bare name => some (String.ofList (r.insert known name).done.reverse)
      | .no => some (String.ofList r.done.reverse)

/-! ## Lines -/

/-- Reads the name of a variable. -/
def readName (s : List Char) : Option (String × List Char) :=
  match s with
  | [] => none
  | c :: _ =>
    if c.isAlpha || c = '_' then
      let name := s.takeWhile fun c => c.isAlphanum || c = '_' || c = '.'
      some (String.ofList name, (s.drop name.length).dropWhile isBlank)
    else none

/-- Reads the equals sign behind a name. -/
def skipEquals : List Char → Option (List Char)
  | '=' :: rest => some (rest.dropWhile isBlank)
  | _ => none

/-- Reads a name with its equals sign. The word `export` may stand before it. -/
def readAssignment (s : List Char) : Option (String × List Char) := do
  let (name, rest) ← readName s
  match skipEquals rest with
  | some rest => some (name, rest)
  | none =>
    if name = "export" then
      let (name, rest) ← readName rest
      let rest ← skipEquals rest
      some (name, rest)
    else none

/-- What a logical line gives. -/
inductive Line where
  | nothing
  | variable (name value : String)
  | broken

/-- Reads a logical line. -/
def readLine (known : Variables) (line : List Char) : Line :=
  match trimChars line with
  | [] => .nothing
  | '#' :: _ => .nothing
  | s =>
    match readAssignment s with
    | none => .broken
    | some (name, []) => .variable name ""
    | some (name, '#' :: _) => .variable name ""
    | some (name, rest) =>
      match readValue known rest with
      | some value => .variable name value
      | none => .broken

/-- Adds the variables of logical lines. `given` holds those of the file, the last one first: a
reference means a variable that is set, and else the last one of the file. -/
def addLines (vars given : Variables) : List (Option (List Char)) → Variables
  | [] => vars
  | none :: _ => vars
  | some line :: rest =>
    match readLine (vars ++ given) line with
    | .nothing => addLines vars given rest
    | .broken => vars
    | .variable name value =>
      let vars' := if vars.has name then vars else vars ++ [(name, value)]
      addLines vars' ((name, value) :: given) rest

/-- The variables together with those of a file. -/
def addFile (vars : Variables) (body : String) : Variables :=
  let body := match body.toList with
    | '\ufeff' :: rest => rest
    | body => body
  addLines vars [] (logicalLines .plain [] (cutLines body))

end Variables

end Timetable.Settings
