import Timetable.Duration
import Timetable.Settings.Literal
import Timetable.Settings.Variables

/-!
# Settings

The settings of the program: defaults, over them those of the settings file, over them those of the
environment. Names of environment variables are compared without case. A setting of the wrong kind
is an error; there is none for a setting that does not exist.
-/

namespace Timetable

/-- The settings of the program. -/
structure Settings where
  /-- The level from which on the program's own events are shown. -/
  logLevel : String := "info"
  port : Nat := 8080
  /-- The address of a remote store. Without it the store is in memory. -/
  storeUrl : Option String := none
  /-- The file that the store in memory starts from. -/
  seedPath : Option String := none
  /-- The term that is loaded first. -/
  defaultTerm : Option String := none
  storeTimeoutSeconds : Nat := 10
  shutdownTimeoutSeconds : Nat := 8
  deriving DecidableEq, Repr

namespace Settings

/-- The address of the remote store without blanks around it; an empty one counts as none. -/
def remoteStore? (s : Settings) : Option String :=
  (s.storeUrl.map Text.trim).filter (· ≠ "")

/-- How long an answer of the store may take. -/
def storeTimeout (s : Settings) : Duration := .ofSeconds s.storeTimeoutSeconds

/-- How long the program may take to stop. -/
def shutdownTimeout (s : Settings) : Duration := .ofSeconds s.shutdownTimeoutSeconds

/-- Why settings cannot be read. -/
inductive Error where
  /-- The settings file is no text, or not well formed. -/
  | malformedFile
  /-- A setting has a value of the wrong kind. -/
  | wrongKind (name : String)
  deriving DecidableEq, Repr

/-- The wording of an error. -/
def Error.message : Error → String
  | malformedFile => "the settings file is not well formed"
  | wrongKind name => "invalid value for setting " ++ name

/-- The name of the settings file. -/
def fileName : String := "planner.toml"

/-- The name of the file of environment variables. -/
def variablesFileName : String := ".env"

/-- Every setting that has a name. -/
def names : List String :=
  ["log_level", "port", "store_url", "seed_path", "default_term", "store_timeout_secs",
   "shutdown_timeout_secs"]

/-- The settings that environment variables give, the last one first. -/
def ofVariables (vars : Variables) : List (String × Value) :=
  (vars.filterMap fun (name, value) =>
    (names.find? (Text.sameLetters · (Text.trim name))).map fun name =>
      (name, Literal.ofText value)).reverse

/-- The value that is a text. -/
def textOf (name : String) : Value → Except Error String
  | .text s => .ok s
  | _ => .error (.wrongKind name)

/-- The value that is a natural number up to a bound. -/
def numberOf (bound : Nat) (name : String) : Value → Except Error Nat
  | .integer n => if 0 ≤ n ∧ n ≤ bound then .ok n.toNat else .error (.wrongKind name)
  | _ => .error (.wrongKind name)

/-- The greatest number of seconds that a setting can be. -/
def greatestSeconds : Nat := 18446744073709551615

/-- A setting by its name: its value, or its default when it is not given. -/
def lookup {α : Type} (given : List (String × Value)) (name : String)
    (read : String → Value → Except Error α) (default : α) : Except Error α :=
  match given.find? (·.1 = name) with
  | some (_, value) => read name value
  | none => .ok default

/-- The settings that are given by name; of two values of a setting the first counts. -/
def ofValues (given : List (String × Value)) : Except Error Settings := do
  let defaults : Settings := {}
  let optional (name : String) : Except Error (Option String) :=
    lookup given name (fun name value => (textOf name value).map some) none
  return {
    logLevel := ← lookup given "log_level" textOf defaults.logLevel
    port := ← lookup given "port" (numberOf 65535) defaults.port
    storeUrl := ← optional "store_url"
    seedPath := ← optional "seed_path"
    defaultTerm := ← optional "default_term"
    storeTimeoutSeconds :=
      ← lookup given "store_timeout_secs" (numberOf greatestSeconds) defaults.storeTimeoutSeconds
    shutdownTimeoutSeconds :=
      ← lookup given "shutdown_timeout_secs" (numberOf greatestSeconds)
        defaults.shutdownTimeoutSeconds }

/-- The settings of a settings file, if there is one, and of environment variables. -/
def load (file : Option String) (vars : Variables) : Except Error Settings :=
  match Toml.read (file.getD "") with
  | some values => ofValues (ofVariables vars ++ values)
  | none => .error .malformedFile

end Settings

end Timetable
