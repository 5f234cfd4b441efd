import Timetable.Text.Case

/-!
# Settings files

A settings file is a TOML document: pairs of a key and a value, grouped under headers. Of a value
only its kind matters, and its content when it is a text or an integer. Reading fails when the
document is not well formed, or gives something two meanings.
-/

namespace Timetable.Settings

open Text

/-- A value of a setting. -/
inductive Value where
  | text (s : String)
  | integer (n : Int)
  /-- A number with a point, a flag, a date, a list or a table: of no use for any setting. -/
  | other
  deriving DecidableEq, Repr

namespace Toml

/-- A reader consumes the start of a text and leaves the rest, or fails. -/
abbrev Reader (α : Type) := List Char → Option (α × List Char)

/-! ## Blanks, comments and line ends -/

/-- Whether a character is a blank inside of a line. -/
def isBlank (c : Char) : Bool := c = ' ' || c = '\t'

/-- The text behind any blanks. -/
def skipBlanks (s : List Char) : List Char := s.dropWhile isBlank

/-- Whether a character may stand in texts and comments. -/
def isShown (c : Char) : Bool := c = '\t' || (0x20 ≤ c.toNat && c.toNat ≠ 0x7f)

/-- The text behind a line end, if there is one. -/
def lineEnd? : List Char → Option (List Char)
  | '\n' :: rest => some rest
  | '\r' :: '\n' :: rest => some rest
  | _ => none

/-- The text behind a comment, if there is one. -/
def skipComment : List Char → List Char
  | '#' :: rest => rest.dropWhile isShown
  | s => s

/-- Reads the end of a line: blanks, a comment, and a line end or the end of the document. -/
def endLine (s : List Char) : Option (List Char) :=
  match skipComment (skipBlanks s) with
  | [] => some []
  | rest => lineEnd? rest

/-- The text behind any blanks, comments and line ends. Every round consumes a character. -/
def skipLines : Nat → List Char → List Char
  | 0, s => s
  | fuel + 1, s =>
    match skipComment (skipBlanks s) with
    | [] => []
    | rest =>
      match lineEnd? rest with
      | some rest => skipLines fuel rest
      | none => rest

/-! ## Texts -/

/-- Reads the digits of a numbered character. -/
def readCode (count : Nat) : Reader Char := fun s => do
  let digits := s.take count
  if digits.length < count then none
  let n := ofDigits 16 (← digits.mapM hexDigit?)
  if n < 0xd800 ∨ (0xdfff < n ∧ n < 0x110000) then some (Char.ofNat n, s.drop count) else none

/-- Reads an escape behind its backslash. -/
def readEscape : Reader Char
  | 'b' :: rest => some ('\x08', rest)
  | 't' :: rest => some ('\t', rest)
  | 'n' :: rest => some ('\n', rest)
  | 'f' :: rest => some ('\x0c', rest)
  | 'r' :: rest => some ('\r', rest)
  | '"' :: rest => some ('"', rest)
  | '\\' :: rest => some ('\\', rest)
  | 'u' :: rest => readCode 4 rest
  | 'U' :: rest => readCode 8 rest
  | _ => none

/-- Reads a text behind its quotation mark; `done` holds its characters, the last one first. -/
def readBasic : Nat → List Char → Reader String
  | 0, _, _ => none
  | _ + 1, _, [] => none
  | fuel + 1, done, c :: rest =>
    if c = '"' then some (String.ofList done.reverse, rest)
    else if c = '\\' then do
      let (e, rest) ← readEscape rest
      readBasic fuel (e :: done) rest
    else if isShown c then readBasic fuel (c :: done) rest
    else none

/-- Reads a text without escapes behind its apostrophe. -/
def readLiteral (s : List Char) : Option (String × List Char) :=
  let body := s.takeWhile fun c => c ≠ '\'' && isShown c
  match s.drop body.length with
  | '\'' :: rest => some (String.ofList body, rest)
  | _ => none

/-- The text behind a backslash at the end of a line: blanks and line ends are passed over. -/
def joinLines (s : List Char) : Option (List Char) :=
  (lineEnd? (skipBlanks s)).map fun rest =>
    rest.dropWhile fun c => isBlank c || c = '\n' || c = '\r'

/-- Reads a text of several lines behind its three quotation marks. Two more marks before the
closing ones belong to the text. -/
def readLong (mark : Char) (escapes : Bool) : Nat → List Char → Reader String
  | 0, _, _ => none
  | _ + 1, _, [] => none
  | fuel + 1, done, c :: rest =>
    if c = mark then
      let marks := (c :: rest).takeWhile (· = mark)
      let behind := (c :: rest).drop marks.length
      if marks.length < 3 then readLong mark escapes fuel (marks ++ done) behind
      else if marks.length ≤ 5 then
        some (String.ofList ((marks.drop 3 ++ done).reverse), behind)
      else none
    else if escapes && c = '\\' then
      match joinLines rest with
      | some rest => readLong mark escapes fuel done rest
      | none => do
        let (e, rest) ← readEscape rest
        readLong mark escapes fuel (e :: done) rest
    else
      match lineEnd? (c :: rest) with
      | some rest => readLong mark escapes fuel ('\n' :: done) rest
      | none => if isShown c then readLong mark escapes fuel (c :: done) rest else none

/-- Reads a text of several lines; a line end right behind the opening marks does not count. -/
def readLongText (mark : Char) (escapes : Bool) (s : List Char) : Option (String × List Char) :=
  readLong mark escapes (s.length + 1) [] ((lineEnd? s).getD s)

/-- Reads a text of any kind. -/
def readText : Reader String
  | '"' :: '"' :: '"' :: rest => readLongText '"' true rest
  | '\'' :: '\'' :: '\'' :: rest => readLongText '\'' false rest
  | '"' :: rest => readBasic (rest.length + 1) [] rest
  | '\'' :: rest => readLiteral rest
  | _ => none

/-! ## Keys -/

/-- Whether a character may stand in a key without quotation marks. -/
def isKeyChar (c : Char) : Bool := c.isAlphanum || c = '_' || c = '-'

/-- Reads one part of a key. -/
def readKeyPart : Reader String
  | '"' :: rest => readBasic (rest.length + 1) [] rest
  | '\'' :: rest => readLiteral rest
  | s =>
    match s.takeWhile isKeyChar with
    | [] => none
    | part => some (String.ofList part, s.drop part.length)

/-- Reads a key: parts with points between them, and blanks around them. -/
def readKey : Nat → Reader (List String)
  | 0, _ => none
  | fuel + 1, s => do
    let (part, rest) ← readKeyPart (skipBlanks s)
    match skipBlanks rest with
    | '.' :: rest =>
      let (parts, rest) ← readKey fuel rest
      some (part :: parts, rest)
    | rest => some ([part], rest)

/-! ## Numbers and dates -/

/-- The digits of a number in which underscores may stand between digits. -/
def digitsOf (base : Nat) (s : List Char) : Option (List Nat) :=
  let rec go : Bool → List Char → Option (List Nat)
    | afterDigit, [] => if afterDigit then some [] else none
    | afterDigit, c :: rest =>
      if c = '_' then if afterDigit then go false rest else none
      else do
        let d ← hexDigit? c
        if d < base then (d :: ·) <$> go true rest else none
  go false s

/-- The digits of a number in base 10 that has no needless zero at its start. -/
def plainDigits (s : List Char) : Option (List Nat) :=
  match digitsOf 10 s with
  | some (0 :: _ :: _) => none
  | digits => digits

/-- The sign of a number and what follows it. -/
def splitSign : List Char → Bool × List Char
  | '-' :: rest => (true, rest)
  | '+' :: rest => (false, rest)
  | s => (false, s)

/-- The integer that a word writes, if it is one. -/
def integer? (word : List Char) : Option Int :=
  match word with
  | '0' :: 'x' :: digits => ((digitsOf 16 digits).map fun d => (ofDigits 16 d : Int))
  | '0' :: 'o' :: digits => ((digitsOf 8 digits).map fun d => (ofDigits 8 d : Int))
  | '0' :: 'b' :: digits => ((digitsOf 2 digits).map fun d => (ofDigits 2 d : Int))
  | word =>
    let (negative, digits) := splitSign word
    (plainDigits digits).map fun d =>
      if negative then -(ofDigits 10 d : Int) else (ofDigits 10 d : Int)

/-- Whether an integer fits 64 bits. -/
def fits (n : Int) : Bool := -9223372036854775808 ≤ n && n ≤ 9223372036854775807

/-- Whether a text is an exponent behind its letter. -/
def isExponent (s : List Char) : Bool := (digitsOf 10 (splitSign s).2).isSome

/-- Whether a word is a number with a point or an exponent, or one of the two special numbers. -/
def isReal (word : List Char) : Bool :=
  let unsigned := (splitSign word).2
  let isMark : Char → Bool := fun c => c = 'e' || c = 'E'
  let mantissa := unsigned.takeWhile fun c => !isMark c
  let whole := mantissa.takeWhile (· ≠ '.')
  let decimals := mantissa.drop whole.length
  let power := unsigned.drop mantissa.length
  String.ofList unsigned ∈ ["inf", "nan"] ||
    ((plainDigits whole).isSome && (decimals.isEmpty || (digitsOf 10 (decimals.drop 1)).isSome)
      && (power.isEmpty || isExponent (power.drop 1)) && !(decimals.isEmpty && power.isEmpty))

/-- The number that exactly `count` digits at the start of a text write. -/
def readFixed (count : Nat) : Reader Nat := fun s => do
  let digits ← (s.take count).mapM digit?
  if digits.length = count then some (ofDigits 10 digits, s.drop count) else none

/-- Reads one character. -/
def expect (c : Char) : List Char → Option (List Char)
  | x :: rest => if x = c then some rest else none
  | [] => none

/-- The number of days in a month. -/
def daysIn (year month : Nat) : Nat :=
  if month = 2 then if year % 4 = 0 ∧ (year % 100 ≠ 0 ∨ year % 400 = 0) then 29 else 28
  else if month ∈ [4, 6, 9, 11] then 30
  else 31

/-- Reads a date. -/
def readDate (s : List Char) : Option (List Char) := do
  let (year, s) ← readFixed 4 s
  let (month, s) ← readFixed 2 (← expect '-' s)
  let (day, s) ← readFixed 2 (← expect '-' s)
  if 1 ≤ month ∧ month ≤ 12 ∧ 1 ≤ day ∧ day ≤ daysIn year month then some s else none

/-- Reads a time of day. -/
def readTime (s : List Char) : Option (List Char) := do
  let (hour, s) ← readFixed 2 s
  let (minute, s) ← readFixed 2 (← expect ':' s)
  let (second, s) ← readFixed 2 (← expect ':' s)
  if 23 < hour ∨ 59 < minute ∨ 60 < second then none
  match s with
  | '.' :: rest =>
    let decimals := rest.takeWhile Char.isDigit
    if decimals.isEmpty then none else some (rest.drop decimals.length)
  | s => some s

/-- Reads the distance to universal time. -/
def readOffset (s : List Char) : Option (List Char) :=
  match s with
  | 'Z' :: rest | 'z' :: rest => some rest
  | '+' :: rest | '-' :: rest => do
    let (hour, s) ← readFixed 2 rest
    let (minute, s) ← readFixed 2 (← expect ':' s)
    if hour ≤ 23 ∧ minute ≤ 59 then some s else none
  | s => some s

/-- Whether a word is a time of day. -/
def isTime (word : List Char) : Bool := readTime word = some []

/-- Whether a word is a date, with or without a time. -/
def isDate (word : List Char) : Bool :=
  match readDate word with
  | some [] => true
  | some (c :: rest) =>
    (c = 'T' || c = 't' || c = ' ') && ((readTime rest).bind readOffset) = some []
  | none => false

/-- Whether a character ends a word. -/
def endsWord (c : Char) : Bool := isBlank c || "\n\r,]\x7d#".toList.contains c

/-- The word at the start of a text. A date and a time with one blank between them are one word. -/
def wordOf (s : List Char) : List Char :=
  let word := s.takeWhile (!endsWord ·)
  match s.drop word.length with
  | ' ' :: rest =>
    let next := rest.takeWhile (!endsWord ·)
    if readDate word = some [] && isDate (word ++ ' ' :: next) then word ++ ' ' :: next else word
  | _ => word

/-- Reads a number, flag or date. -/
def readWord : Reader Value := fun s =>
  let word := wordOf s
  let rest := s.drop word.length
  if String.ofList word ∈ ["true", "false"] then some (.other, rest)
  else
    match integer? word with
    | some n => if fits n then some (.integer n, rest) else none
    | none => if isReal word || isDate word || isTime word then some (.other, rest) else none

/-! ## Tables -/

/-- How a table came to be. -/
inductive Origin where
  /-- By a header of its own. -/
  | header
  /-- As a part of another header. -/
  | path
  /-- As a part of a key. -/
  | key
  deriving DecidableEq, Repr

/-- What a key stands for while a document is read. -/
inductive Node where
  | value (v : Value)
  | table (origin : Origin) (members : List (String × Node))
  /-- A list of tables; only the last one can still grow. -/
  | tables (last : List (String × Node))

/-- The members of a table. -/
abbrev Members := List (String × Node)

/-- Changes what a name stands for; `none` when the change is not allowed. -/
def modify (name : String) (change : Option Node → Option Node) : Members → Option Members
  | [] => (change none).map fun node => [(name, node)]
  | (other, node) :: rest =>
    if other = name then (change (some node)).map fun node => (name, node) :: rest
    else (modify name change rest).map fun rest => (other, node) :: rest

/-- Gives a key a value. Tables on the way come to be by the key, and none of them has a header. -/
def put (v : Value) : List String → Members → Option Members
  | [], _ => none
  | [name], members =>
    modify name (fun | none => some (.value v) | some _ => none) members
  | name :: parts, members =>
    modify name (fun
      | none => (put v parts []).map (.table .key)
      | some (.table .header _) => none
      | some (.table origin inner) => (put v parts inner).map (.table origin)
      | some _ => none) members

/-- Opens the table of a header. It has not been opened, and is no part of a key. -/
def openTable : List String → Members → Option Members
  | [], _ => none
  | [name], members =>
    modify name (fun
      | none => some (.table .header [])
      | some (.table .path inner) => some (.table .header inner)
      | some _ => none) members
  | name :: parts, members =>
    modify name (fun
      | none => (openTable parts []).map (.table .path)
      | some (.table origin inner) => (openTable parts inner).map (.table origin)
      | some (.tables last) => (openTable parts last).map .tables
      | some (.value _) => none) members

/-- Opens one more table of a list. -/
def appendTable : List String → Members → Option Members
  | [], _ => none
  | [name], members =>
    modify name (fun
      | none | some (.tables _) => some (.tables [])
      | some _ => none) members
  | name :: parts, members =>
    modify name (fun
      | none => (appendTable parts []).map (.table .path)
      | some (.table origin inner) => (appendTable parts inner).map (.table origin)
      | some (.tables last) => (appendTable parts last).map .tables
      | some (.value _) => none) members

/-- Changes the table that a header has opened. -/
def within (change : Members → Option Members) : List String → Members → Option Members
  | [], members => change members
  | name :: parts, members =>
    modify name (fun
      | some (.table origin inner) => (within change parts inner).map (.table origin)
      | some (.tables last) => (within change parts last).map .tables
      | _ => none) members

/-! ## Values and documents -/

mutual

/-- Reads a value. Lists and tables nest; `fuel` bounds the readers that are called in a row. -/
def readValue : Nat → Reader Value
  | 0, _ => none
  | fuel + 1, s =>
    match s with
    | '[' :: rest => readElements fuel rest
    | '\x7b' :: rest => readMembers fuel true [] rest
    | '"' :: _ | '\'' :: _ => (readText s).map fun (t, rest) => (.text t, rest)
    | s => readWord s

/-- Reads the elements of a list up to its closing bracket. -/
def readElements : Nat → Reader Value
  | 0, _ => none
  | fuel + 1, s =>
    match skipLines (s.length + 1) s with
    | ']' :: rest => some (.other, rest)
    | s => do
      let (_, rest) ← readValue fuel s
      match skipLines (rest.length + 1) rest with
      | ',' :: rest => readElements fuel rest
      | ']' :: rest => some (.other, rest)
      | _ => none

/-- Reads the members of a table on one line up to its closing brace. -/
def readMembers : Nat → Bool → Members → Reader Value
  | 0, _, _, _ => none
  | fuel + 1, first, members, s =>
    match first, skipBlanks s with
    | true, '\x7d' :: rest => some (.other, rest)
    | _, s => do
      let (key, rest) ← readKey (s.length + 1) s
      let (v, rest) ← readValue fuel (skipBlanks (← expect '=' (skipBlanks rest)))
      let members ← put v key members
      match skipBlanks rest with
      | ',' :: rest => readMembers fuel false members rest
      | '\x7d' :: rest => some (.other, rest)
      | _ => none

end

/-- Reads a header behind its first bracket; `closing` is what ends it. -/
def readHeader (closing : List Char) : Reader (List String) := fun s => do
  let (key, rest) ← readKey (s.length + 1) s
  let rest := skipBlanks rest
  if closing.isPrefixOf rest then some (key, rest.drop closing.length) else none

/-- Reads the lines of a document under the header `current`. Every line consumes a character. -/
def readDocument : Nat → List String → Members → List Char → Option Members
  | 0, _, _, _ => none
  | fuel + 1, current, members, s =>
    match skipLines (s.length + 1) s with
    | [] => some members
    | '[' :: '[' :: rest => do
      let (key, rest) ← readHeader [']', ']'] rest
      readDocument fuel key (← appendTable key members) (← endLine rest)
    | '[' :: rest => do
      let (key, rest) ← readHeader [']'] rest
      readDocument fuel key (← openTable key members) (← endLine rest)
    | s => do
      let (key, rest) ← readKey (s.length + 1) s
      let rest ← expect '=' (skipBlanks rest)
      let (v, rest) ← readValue (rest.length + 1) (skipBlanks rest)
      readDocument fuel current (← within (put v key) current members) (← endLine rest)

/-- The value that a node is for a setting. -/
def Node.setting : Node → Value
  | .value v => v
  | .table .. | .tables _ => .other

/-- Reads a document as the values of its outermost keys. -/
def read (s : String) : Option (List (String × Value)) :=
  let body := match s.toList with
    | '\ufeff' :: rest => rest
    | body => body
  (readDocument (body.length + 1) [] [] body).map fun members =>
    members.map fun (name, node) => (name, node.setting)

end Toml

end Timetable.Settings
