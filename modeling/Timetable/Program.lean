import Timetable.Api.Server
import Timetable.Application
import Timetable.Command
import Timetable.Report

/-!
# The program

A run of the program reads its command line and then checks a plan file, or comes up and serves
until it is told to stop. What a run depends on is a value, so a run is a function: its end says
what it printed, what it reported in the journal, and its exit code.
-/

namespace Timetable

open Journal (Entry)
open Settings (Variables)

/-- What a run depends on. -/
structure Surroundings where
  arguments : List String
  /-- The environment variables that are set. -/
  environment : Variables
  /-- The files that the run can read. -/
  files : String → FileContent
  /-- The responses of a store on the network. -/
  network : Store.Remote.Request → Store.Remote.Exchange
  /-- Why the run cannot listen at a port, if it cannot. -/
  obstacle : Nat → Option String

namespace Surroundings

/-- The environment variables that are set, and those that the file of variables adds. -/
def variablesInForce (s : Surroundings) : Variables :=
  match (s.files Settings.variablesFileName).text with
  | .ok body => s.environment.addFile body
  | .error _ => s.environment

/-- The text of the settings file, if there is one. -/
def settingsText (s : Surroundings) : Except Settings.Error (Option String) :=
  match s.files Settings.fileName with
  | .failed _ => .ok none
  | content =>
    match content.text with
    | .ok body => .ok (some body)
    | .error _ => .error .malformedFile

/-- The settings of a run. -/
def settings (s : Surroundings) : Except Settings.Error Settings := do
  Settings.load (← s.settingsText) s.variablesInForce

/-- The files that a run needs, as far as the files that it can read tell. -/
def paths (s : Surroundings) : List String :=
  match Command.read s.arguments with
  | .error _ => []
  | .ok ⟨_, some (.check file _)⟩ => [file]
  | .ok _ =>
    let seeds := match s.settings with
      | .ok settings => settings.seedPath.toList
      | .error _ => []
    Settings.variablesFileName :: Settings.fileName :: seeds

/-- The filter of the journal. -/
def filter (s : Surroundings) (settings : Settings) : Journal.Filter :=
  .choose (s.variablesInForce.value? "RUST_LOG") settings.logLevel

end Surroundings

/-! ## The end of a run -/

/-- A journal that has been kept. -/
structure Journal.Kept where
  format : JournalFormat
  entries : List Entry
  deriving DecidableEq, Repr

/-- The entries as they are written, each of them as a line of its own. -/
def Journal.Kept.lines (journal : Journal.Kept) : List String :=
  journal.entries.map fun e =>
    match journal.format with
    | .pretty => e.line
    | .json => e.toJson.compact

/-- How a run ends. -/
inductive Ending where
  /-- The command line asks for nothing that could be run. -/
  | stopped (why : Command.Stop)
  /-- A plan file was checked: its report, or why there is none. -/
  | checked (result : Except String String)
  /-- The settings cannot be read. -/
  | unsettled (why : Settings.Error)
  /-- The application did not come up, or cannot listen. -/
  | failed (journal : Journal.Kept)
  /-- The application served until it was told to stop. -/
  | served (journal : Journal.Kept)

namespace Ending

/-- The name of the program and its version. -/
def versionLine : String := "planner " ++ Api.version ++ "\n"

/-- How the program is called. -/
def usage : String :=
  "Usage: planner [--tracing pretty|json] [serve | check [--json] FILE]\n"

/-- The exit code. -/
def code : Ending → Nat
  | stopped why => if why.isMistake then 2 else 0
  | checked (.ok _) | served _ => 0
  | checked (.error _) | unsettled _ | failed _ => 1

/-- What is printed, apart from the journal. -/
def output : Ending → String
  | stopped .versionWanted => versionLine
  | stopped .helpWanted => usage
  | checked (.ok report) => report
  | _ => ""

/-- What is printed as an error. -/
def complaint : Ending → String
  | stopped why => if why.isMistake then usage else ""
  | checked (.error why) => "error: " ++ why ++ "\n"
  | unsettled why => "error: failed to load config: " ++ why.message ++ "\n"
  | _ => ""

/-- The journal. -/
def journal? : Ending → Option Journal.Kept
  | failed journal | served journal => some journal
  | _ => none

end Ending

/-! ## Runs -/

namespace Program

/-- The part of the program that a run is. -/
def target : String := "planner"

/-- Reports that a run begins. -/
def beginNotice : Entry where
  level := .info
  target := target
  message := "starting planner"
  fields := [("version", .quoted Api.version), ("environment", .quoted "development")]

/-- Reports that the application does not come up. -/
def failureNotice (why : StartFailure) : Entry where
  level := .error
  target := target
  message := "Failed to initialize application"
  fields := [("error", .shown why.paragraphs)]

/-- How far a run gets before it has to listen. -/
inductive Launch where
  | ended (ending : Ending)
  /-- The application is up; `entries` is what has been reported so far. -/
  | up (format : JournalFormat) (filter : Journal.Filter) (application : Application)
    (entries : List Entry)

/-- Launches a run that is to serve. -/
def launchServer (s : Surroundings) (format : JournalFormat) : Launch :=
  match s.settings with
  | .error why => .ended (.unsettled why)
  | .ok settings =>
    let filter := s.filter settings
    match Application.start settings s.files s.network with
    | .error why => .ended (.failed ⟨format, filter.apply [beginNotice, failureNotice why]⟩)
    | .ok (application, started) => .up format filter application (beginNotice :: started)

/-- Launches a run. -/
def launch (s : Surroundings) : Launch :=
  match Command.read s.arguments with
  | .error why => .ended (.stopped why)
  | .ok ⟨format, task⟩ =>
    match task with
    | some (.check file json) => .ended (.checked (Report.check file (s.files file) json))
    | some .serve | none => launchServer s format

/-- The end of a launched run to which no client comes. -/
def Launch.finish (obstacle : Nat → Option String) : Launch → Ending
  | ended e => e
  | up format filter application entries =>
    let settings := application.settings
    match obstacle settings.port with
    | some why =>
      .failed ⟨format, filter.apply (entries ++ [Application.deafNotice settings why])⟩
    | none =>
      .served ⟨format, filter.apply
        (entries ++ Application.listeningNotice settings :: Application.stoppingNotices settings)⟩

/-- The end of a run to which no client comes. -/
def run (s : Surroundings) : Ending := (launch s).finish s.obstacle

end Program

end Timetable
