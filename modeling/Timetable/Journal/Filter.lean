import Timetable.Journal.Entry
import Timetable.Text.Blank
import Timetable.Url.Form

/-!
# Filters

A filter says which entries are kept. It is a list of directives, separated by commas: a level, a
part of the program, or a part with the level from which on its entries are kept. Of several
directives that apply the one with the longest name counts. A directive can also name a span: it
keeps the entries inside of it.
-/

namespace Timetable.Journal

/-- One rule of a filter. -/
structure Directive where
  /-- The beginning of the names of the parts that it applies to; none for all. -/
  target : Option String
  /-- The name of the span that it applies to. -/
  span : Option String
  /-- Whether it asks for fields of the span, too. -/
  asksFields : Bool
  /-- The highest rank that is kept; zero for none. -/
  limit : Nat
  deriving DecidableEq, Repr

/-- A list of rules. -/
abbrev Filter := List Directive

namespace Filter

/-- The rank of the level with a name or a number. -/
def rankOf? (s : String) : Option Nat :=
  match ["off", "error", "warn", "info", "debug", "trace"].findIdx? (Text.sameLetters s) with
  | some rank => some rank
  | none => (Text.natural? s.toList).filter (· ≤ 5)

/-- The rank that follows an equals sign; without any, everything is kept. -/
def readLimit : List Char → Option Nat
  | [] => some 5
  | '=' :: [] => some 5
  | '=' :: level => rankOf? (String.ofList level)
  | _ => none

/-- Whether a directive may start with a character. -/
def startsDirective (c : Char) : Bool := c.isAlphanum || "-:_[".toList.contains c

/-- Reads the span of a directive behind its bracket. -/
def readSpan (target : Option String) (s : List Char) : Option Directive := do
  let inner := s.takeWhile (· ≠ ']')
  let name := inner.takeWhile (· ≠ '\x7b')
  if inner.length = s.length then none
  let limit ← readLimit (s.drop (inner.length + 1))
  some ⟨target, if name.isEmpty then none else some (String.ofList name),
    name.length < inner.length, limit⟩

/-- Reads a directive. -/
def readDirective (s : List Char) : Option Directive := do
  let s := Text.trimChars s
  if !(s.head?.any startsDirective) then none
  let target := s.takeWhile fun c => c ≠ '=' && c ≠ '['
  let name := String.ofList target
  match s.drop target.length with
  | '[' :: rest => readSpan (if target.isEmpty then none else some name) rest
  | [] =>
    match rankOf? name with
    | some limit => some ⟨none, none, false, limit⟩
    | none => some ⟨some name, none, false, 5⟩
  | rest => (readLimit rest).map fun limit => ⟨some name, none, false, limit⟩

/-- Reads a filter. The empty text is the filter that keeps nothing. -/
def read? (s : String) : Option Filter :=
  if s = "" then some [⟨none, none, false, 0⟩]
  else (Url.splitOn ',' s.toList).mapM readDirective

/-- Reads a filter without the directives that cannot be read. -/
def readLeniently (s : String) : Filter :=
  (Url.splitOn ',' s.toList).filterMap readDirective

/-- Whether a directive applies to a part of the program. -/
def appliesTo (d : Directive) (target : String) : Bool :=
  match d.target with
  | none => true
  | some t => t.toList.isPrefixOf target.toList

/-- How narrow the target of a directive is. -/
def narrowness (d : Directive) : Nat :=
  match d.target with
  | none => 0
  | some t => t.utf8ByteSize + 1

/-- Of two directives the narrower one, and the later one if they are equally narrow. -/
def narrower (best : Option Directive) (d : Directive) : Option Directive :=
  match best with
  | some b => if narrowness d < narrowness b then some b else some d
  | none => some d

/-- The highest rank that is kept of a part of the program. -/
def limitFor (f : Filter) (target : String) : Nat :=
  let applying := f.filter fun d => d.span.isNone && !d.asksFields && appliesTo d target
  match applying.foldl narrower none with
  | some d => d.limit
  | none => 0

/-- The directives that name a span. -/
def naming (f : Filter) (s : Span) : List Directive :=
  f.filter fun d => d.span = some s.name && !d.asksFields && appliesTo d s.target

/-- Whether a span is shown. Spans matter as much as entries of level `info`. -/
def showsSpan (f : Filter) (s : Span) : Bool :=
  Level.info.rank ≤ limitFor f s.target || !(naming f s).isEmpty

/-- Whether an entry is kept. -/
def keeps (f : Filter) (e : Entry) : Bool :=
  e.level.rank ≤ limitFor f e.target ||
    (match e.span with
    | some s => (naming f s).any fun d => e.level.rank ≤ d.limit
    | none => false)

/-- The entries that are kept, each with its span if that is shown. -/
def apply (f : Filter) (entries : List Entry) : List Entry :=
  (entries.filter (keeps f)).map fun e => { e with span := e.span.filter (showsSpan f) }

/-- The text of the filter that is used when none is given. -/
def defaultText (level : String) : String :=
  "warn,planner=" ++ level ++ ",planner::store::http=info"

/-- The filter that `wanted` describes; without one, or when it cannot be read, the usual one with
the level of the program. -/
def choose (wanted : Option String) (level : String) : Filter :=
  (wanted.bind read?).getD (readLeniently (defaultText level))

end Filter

end Timetable.Journal
