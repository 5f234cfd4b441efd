import Timetable.Json.Value
import Timetable.Text.Quoted

/-!
# The journal

The program reports what happens to it in entries: a level, the part of the program that reports, a
message, and named fields. An entry may be made inside of a span, an activity with fields of its
own. An entry is written as a line of text or as a JSON object.
-/

namespace Timetable.Journal

/-- How much an entry matters. -/
inductive Level where
  | error | warn | info | debug | trace
  deriving DecidableEq, Repr

namespace Level

/-- The rank of a level: the less it matters, the higher. -/
def rank : Level → Nat
  | error => 1 | warn => 2 | info => 3 | debug => 4 | trace => 5

/-- The name of a level. -/
def name : Level → String
  | error => "ERROR" | warn => "WARN" | info => "INFO" | debug => "DEBUG" | trace => "TRACE"

end Level

/-- The content of a field. -/
inductive Content where
  /-- A text that lines show as it is. -/
  | shown (s : String)
  /-- A text that lines show between quotation marks. -/
  | quoted (s : String)
  | number (n : Int)
  | flag (b : Bool)
  deriving DecidableEq, Repr

/-- An activity inside of which entries are made. -/
structure Span where
  name : String
  /-- The part of the program that it belongs to. -/
  target : String
  fields : List (String × String)
  deriving DecidableEq, Repr

/-- An entry of the journal. -/
structure Entry where
  level : Level
  /-- The part of the program that reports. -/
  target : String
  message : String
  fields : List (String × Content) := []
  span : Option Span := none
  deriving DecidableEq, Repr

/-- The same entry inside of a span. -/
def Entry.inside (e : Entry) (span : Span) : Entry := { e with span := some span }

/-! ## Lines -/

/-- Whether a terminal could take a character for a command. -/
def isCommand (c : Char) : Bool :=
  c = '\x1b' || c = '\x07' || c = '\x08' || c = '\x0c' || c = '\x7f' ||
    (0x80 ≤ c.toNat && c.toNat ≤ 0x9f)

/-- A text in which no terminal finds a command. -/
def defuse (s : String) : String :=
  String.ofList (s.toList.flatMap fun c =>
    if c.toNat < 0x80 && isCommand c then
      ['\\', 'x', Json.hexDigit (c.toNat / 16), Json.hexDigit (c.toNat % 16)]
    else if isCommand c then Text.numbered c
    else [c])

/-- The content of a field in a line. -/
def Content.text : Content → String
  | shown s => s
  | quoted s => Text.quote s
  | number n => toString n
  | flag b => if b then "true" else "false"

/-- The line of an entry; it goes on behind line ends in the message and in fields. -/
def Entry.line (e : Entry) : String :=
  let span := match e.span with
    | some s => s.name ++ ": "
    | none => ""
  let fields := e.fields.map fun (name, content) => " " ++ name ++ "=" ++ defuse content.text
  let spanFields := match e.span with
    | some s => s.fields.map fun (name, content) => " " ++ name ++ "=" ++ defuse content
    | none => []
  e.level.name ++ " " ++ span ++ e.target ++ ": " ++ defuse e.message
    ++ String.join (fields ++ spanFields)

/-! ## Objects -/

/-- The content of a field in an object. -/
def Content.toJson : Content → Json.Value
  | shown s | quoted s => .text s
  | number n => .integer n
  | flag b => .flag b

/-- A span in an object. -/
def Span.toJson (s : Span) : Json.Value :=
  .object (("name", .text s.name) :: s.fields.map fun (name, content) => (name, .text content))

/-- An entry as an object: its fields stand beside its level and its message. -/
def Entry.toJson (e : Entry) : Json.Value :=
  let spans := match e.span with
    | some s => [("span", s.toJson), ("spans", Json.Value.list [s.toJson])]
    | none => []
  .object
    ([("level", .text e.level.name), ("message", .text e.message)]
      ++ e.fields.map (fun (name, content) => (name, content.toJson))
      ++ ("target", .text e.target) :: spans)

end Timetable.Journal
