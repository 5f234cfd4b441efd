import Timetable.Journal.Filter
import Timetable.Planner.Notices
import Timetable.Service
import Timetable.Settings.Basic
import Timetable.Store.Remote
import Timetable.Store.Seed

/-!
# The application

The settings say where plans are kept: on the network, in a memory that starts from a seed file, or
in one that starts empty. The application comes up with the plan of its first term. A store that
does not give that plan is no reason not to come up; a bad address and a bad seed file are.
-/

namespace Timetable

open Journal (Entry Content)

/-! ## Where plans are kept -/

/-- A place where plans are kept. -/
inductive Backend where
  | memory (memory : Store.Memory)
  | remote (remote : Store.Remote)

namespace Backend

/-- The name of the kind of a place. -/
def name : Backend → String
  | memory _ => "memory"
  | remote _ => "http"

/-- Answers calls; `network` carries requests to a store on the network. -/
def server (network : Store.Remote.Request → Store.Remote.Exchange) : Server Backend
  | _, call, memory m => let (reply, m) := m.serve call; (reply, memory m)
  | _, call, remote r => (r.serve network call, remote r)

end Backend

/-! ## Coming up -/

/-- Why an application does not come up. -/
inductive StartFailure where
  | badAddress (written : String) (why : Url.Error)
  | badSeed (why : Store.Error)

namespace StartFailure

/-- What the application was about. -/
def attempt : StartFailure → String
  | badAddress written _ => "Invalid STORE_URL " ++ written
  | badSeed _ => "Failed to load planner seed"

/-- What stood against it. -/
def cause : StartFailure → String
  | badAddress _ why => why.message
  | badSeed why => why.message

/-- The wording in one line. -/
def message (f : StartFailure) : String := f.attempt ++ ": " ++ f.cause

/-- The wording in a paragraph of its own for the cause, whose lines are indented. -/
def paragraphs (f : StartFailure) : String :=
  f.attempt ++ "\n\nCaused by:\n    "
    ++ String.ofList (f.cause.toList.flatMap fun c => if c = '\n' then "\n    ".toList else [c])

end StartFailure

/-- The part of the program that an application is. -/
def Application.target : String := "planner::app"

/-- An application that has come up. -/
structure Application where
  settings : Settings
  planner : Planner
  backend : Backend

namespace Application

/-- Reports that an application is about to use a store on the network. -/
def remoteNotice (s : Settings) (url : Url) : Entry where
  level := .info
  target := target
  message := "Using remote planner store"
  fields := [("url", .shown url.text), ("timeout", .quoted s.storeTimeout.text)]

/-- Reports that the memory starts empty. -/
def emptyNotice : Entry where
  level := .info
  target := target
  message := "No STORE_URL or SEED_PATH set, starting with an empty plan"

/-- Reports that the memory starts from the seed file at `path`. -/
def seedNotice (path : String) (seed : Store.Seed) : Entry where
  level := .info
  target := "planner::store::memory"
  message := "Loaded planner seed"
  fields :=
    [("path", .shown path), ("courses", .number seed.plan.courses.length),
     ("catalog", .number seed.catalog.length)]

/-- The memory that settings describe. -/
def openMemory (s : Settings) (files : String → FileContent) :
    Except StartFailure (Backend × Entry) :=
  match s.seedPath with
  | none => .ok (.memory (.ofSeed {}), emptyNotice)
  | some path =>
    match Store.Seed.ofFile path (files path) with
    | .error why => .error (.badSeed why)
    | .ok seed => .ok (.memory (.ofSeed seed), seedNotice path seed)

/-- The place that settings describe, and what is reported of it. -/
def openBackend (s : Settings) (files : String → FileContent) :
    Except StartFailure (Backend × Entry) :=
  match s.remoteStore? with
  | none => openMemory s files
  | some written =>
    match Url.read written with
    | .error why => .error (.badAddress written why)
    | .ok url => .ok (.remote (.ofUrl url), remoteNotice s url)

/-- The text of a term in a span. -/
def termText : Option String → String
  | none => "None"
  | some term => "Some(" ++ Text.quote term ++ ")"

/-- The span of a load. -/
def loadSpan (term : Option String) : Journal.Span where
  name := "load"
  target := "planner::planner::service"
  fields := [("term", termText term)]

/-- Reports that the first load failed. -/
def loadFailureNotice (e : PlannerError) : Entry where
  level := .warn
  target := target
  message := "Initial plan load failed"
  fields := [("error", .shown e.message)]

/-- Loads the plan of the first term, and reports what comes of it. -/
def firstLoad {σ : Type} (serve : Server σ) (store : σ) (term : Option String) :
    Planner × σ × List Entry :=
  let (ticket, begun) := Planner.new.beginLoad term
  let (reply, _) := serve (.fetchPlan ticket.term) store
  let (result, planner, store) := Planner.new.perform serve store (.load term)
  let answered := (begun.answerNotices ticket reply planner).map (·.inside (loadSpan term))
  let failed := match result with
    | .ok _ => []
    | .error e => [loadFailureNotice e]
  (planner, store, answered ++ failed)

/-- Brings an application up. -/
def start (s : Settings) (files : String → FileContent)
    (network : Store.Remote.Request → Store.Remote.Exchange) :
    Except StartFailure (Application × List Entry) :=
  match openBackend s files with
  | .error why => .error why
  | .ok (backend, opened) =>
    let (planner, backend, loaded) := firstLoad (Backend.server network) backend s.defaultTerm
    .ok (⟨s, planner, backend⟩, opened :: loaded)

/-! ## Serving -/

/-- The address that an application listens at. -/
def address (s : Settings) : String := "0.0.0.0:" ++ toString s.port

/-- Reports that an application listens. -/
def listeningNotice (s : Settings) : Entry where
  level := .info
  target := target
  message := "Web server listening"
  fields := [("addr", .shown (address s))]

/-- Reports why an application cannot listen. -/
def deafNotice (s : Settings) (why : String) : Entry where
  level := .error
  target := target
  message := "Failed to bind"
  fields := [("addr", .shown (address s)), ("error", .shown why)]

/-- Reports that an application is to stop, and that it has. -/
def stoppingNotices (s : Settings) : List Entry :=
  [{ level := .info, target := target, message := "Shutdown signal received, draining"
     fields := [("timeout", .quoted s.shutdownTimeout.text)] },
   { level := .info, target := target, message := "Web server stopped" }]

end Application

end Timetable
