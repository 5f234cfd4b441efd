/-!
# The command line

The program serves, or checks a plan file. Arguments are read from left to right. An option keeps
its value until the next option, or the end, checks it, so of several mistakes the one that is
noticed first is reported.
-/

namespace Timetable

/-- How the journal is written. -/
inductive JournalFormat where
  /-- A line of text for every entry. -/
  | pretty
  /-- A JSON object for every entry. -/
  | json
  deriving DecidableEq, Repr

/-- What the program is to do. -/
inductive Task where
  | serve
  /-- Reports on a plan file, as text or as JSON. -/
  | check (file : String) (json : Bool)
  deriving DecidableEq, Repr

/-- A command line that has been read. -/
structure Command where
  tracing : JournalFormat
  /-- Without a task the program serves. -/
  task : Option Task
  deriving DecidableEq, Repr

namespace Command

/-- Why no command comes of a command line. -/
inductive Stop where
  | helpWanted
  | versionWanted
  | badValue
  | unknownArgument
  | unknownTask
  | repeatedArgument
  | needlessValue
  | missingFile
  deriving DecidableEq, Repr

/-- Whether the command line is mistaken; help and version are no mistakes. -/
def Stop.isMistake : Stop → Bool
  | helpWanted | versionWanted => false
  | _ => true

/-- An argument by its form. -/
inductive Form where
  /-- Two hyphens alone: everything behind is no option. -/
  | separator
  /-- Two hyphens and a name, perhaps with a value behind an equals sign. -/
  | long (name : String) (value : Option String)
  /-- One hyphen and letters. -/
  | short (letters : List Char)
  | plain (word : String)
  deriving DecidableEq, Repr

/-- The form of an argument. -/
def formOf (argument : String) : Form :=
  match argument.toList with
  | ['-', '-'] => .separator
  | '-' :: '-' :: rest =>
    let name := rest.takeWhile (· ≠ '=')
    .long (String.ofList name)
      (if name.length < rest.length then some (String.ofList (rest.drop (name.length + 1)))
      else none)
  | '-' :: c :: rest => .short (c :: rest)
  | _ => .plain argument

/-- The format by its name. -/
def formatOf? (s : String) : Option JournalFormat :=
  if s = "pretty" then some .pretty else if s = "json" then some .json else none

/-- The value of the option for the format, as far as it has been read. -/
inductive Waiting where
  | nothing
  /-- The value comes next. -/
  | value
  | given (s : String)
  deriving DecidableEq, Repr

/-- What has been read in front of the task. -/
structure Options where
  tracing : Option JournalFormat := none
  waiting : Waiting := .nothing
  deriving DecidableEq, Repr

/-- Checks the value that waits. The option comes once, and its value is the name of a format. -/
def Options.settle (o : Options) : Except Stop Options :=
  match o.waiting with
  | .nothing => .ok o
  | .value => .error .badValue
  | .given s =>
    if o.tracing.isSome then .error .repeatedArgument
    else
      match formatOf? s with
      | some f => .ok ⟨some f, .nothing⟩
      | none => .error .badValue

/-- The names of the tasks, with that of the help on them. -/
def taskNames : List String := ["serve", "check", "help"]

/-- Stops for help or version once the value that waits has been checked. -/
def Options.stop (o : Options) (s : Stop) : Stop :=
  match o.settle with
  | .ok _ => s
  | .error e => e

/-- Reads the arguments of `help`: the name of a task, if any. -/
def readHelp : List String → Stop
  | [] => .helpWanted
  | [name] => if name ∈ taskNames then .helpWanted else .unknownTask
  | _ => .unknownTask

/-- Reads the arguments of `serve`. There are none. -/
def readServe : List String → Except Stop Task
  | [] => .ok .serve
  | argument :: rest =>
    match formOf argument with
    | .separator => if rest.isEmpty then .ok .serve else .error .unknownArgument
    | .long "help" none => .error .helpWanted
    | .long "help" (some _) => .error .needlessValue
    | .short ('h' :: _) => .error .helpWanted
    | _ => .error .unknownArgument

/-- What has been read of the arguments of `check`. -/
structure CheckOptions where
  file : Option String := none
  json : Bool := false
  deriving DecidableEq, Repr

/-- Checks the file that has been read. Its name is not empty. -/
def CheckOptions.settle (o : CheckOptions) : Except Stop CheckOptions :=
  if o.file = some "" then .error .badValue else .ok o

/-- The task that the arguments of `check` describe. -/
def CheckOptions.finish (o : CheckOptions) : Except Stop Task :=
  match o.file with
  | some "" => .error .badValue
  | some file => .ok (.check file o.json)
  | none => .error .missingFile

/-- Takes the file to check. -/
def CheckOptions.take (o : CheckOptions) (word : String) : Except Stop CheckOptions :=
  if o.file.isSome then .error .unknownArgument else .ok { o with file := some word }

/-- Reads the arguments of `check`; behind a separator every argument is a file. -/
def readCheck (o : CheckOptions) (separated : Bool) : List String → Except Stop Task
  | [] => o.finish
  | argument :: rest =>
    match if separated then .plain argument else formOf argument with
    | .separator => readCheck o true rest
    | .long "json" none => do
      let o ← o.settle
      if o.json then throw .repeatedArgument
      readCheck { o with json := true } false rest
    | .long "json" (some _) => .error .needlessValue
    | .long "help" none => o.settle >>= fun _ => .error .helpWanted
    | .long "help" (some _) => .error .needlessValue
    | .short ('h' :: _) => o.settle >>= fun _ => .error .helpWanted
    | .plain word => do readCheck (← o.take word) separated rest
    | _ => .error .unknownArgument

/-- The command with a task. -/
def Options.finish (o : Options) (task : Option Task) : Except Stop Command := do
  let o ← o.settle
  return ⟨o.tracing.getD .pretty, task⟩

/-- Reads the task by its name. What is wrong with its arguments is reported first. -/
def readTask (o : Options) (name : String) (rest : List String) : Except Stop Command := do
  if name = "help" then throw (readHelp rest)
  let task ← if name = "serve" then readServe rest else readCheck {} false rest
  o.finish (some task)

/-- Reads arguments. -/
def readFrom (o : Options) : List String → Except Stop Command
  | [] => o.finish none
  | argument :: rest =>
    if o.waiting ≠ .value ∧ argument ∈ taskNames then readTask o argument rest
    else
      match formOf argument with
      | .separator =>
        match rest with
        | [] => o.finish none
        | word :: _ => .error (if word ∈ taskNames then .unknownArgument else .unknownTask)
      | .long "tracing" none => do
        let o ← o.settle
        readFrom { o with waiting := .value } rest
      | .long "tracing" (some s) => do
        let o ← o.settle
        let o ← { o with waiting := .given s : Options }.settle
        readFrom o rest
      | .long "help" none => .error (o.stop .helpWanted)
      | .long "version" none => .error (o.stop .versionWanted)
      | .long "help" (some _) | .long "version" (some _) => .error .needlessValue
      | .short ('h' :: _) => .error (o.stop .helpWanted)
      | .short ('V' :: _) => .error (o.stop .versionWanted)
      | .long .. | .short _ => .error .unknownArgument
      | .plain word =>
        if o.waiting = .value then readFrom { o with waiting := .given word } rest
        else .error .unknownTask

/-- Reads a command line. -/
def read (arguments : List String) : Except Stop Command := readFrom {} arguments

end Command

end Timetable
