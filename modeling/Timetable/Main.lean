import Std.Async.Signal
import Std.Async.System
import Std.Http.Server
import Timetable.Program

/-!
# The command

The outermost layer: it reads files and environment variables, listens, and prints. Everything that
it passes on is decided elsewhere.
-/

namespace Timetable.Command

open Std Std.Async Std.Http

/-! ## Surroundings -/

/-- Reads a file. -/
def readFile (path : String) : IO FileContent := do
  try
    return .bytes (← IO.FS.readBinFile path)
  catch
    | .noFileOrDirectory .. => return .missing
    | e => return .failed (toString e)

/-- The same surroundings with the files that a run needs. -/
def withFiles (s : Surroundings) : IO Surroundings := do
  let read ← s.paths.mapM fun path => return (path, ← readFile path)
  return { s with files := fun path => ((read.find? (·.1 = path)).map (·.2)).getD .missing }

/-- Requests to a store on the network stay without response. -/
def noNetwork : Store.Remote.Request → Store.Remote.Exchange := fun _ => .unanswered

/-- The surroundings of this process. -/
def surroundings (arguments : List String) : IO Surroundings := do
  let environment ← Std.Internal.UV.System.osEnviron
  let s : Surroundings :=
    { arguments, environment := environment.toList, files := fun _ => .missing
      network := noNetwork, obstacle := fun _ => none }
  withFiles (← withFiles s)

/-! ## Serving -/

/-- An application that serves, with its journal. -/
structure Service where
  format : JournalFormat
  filter : Journal.Filter
  state : Mutex (Planner × Backend)

/-- Prints entries of the journal. -/
def printEntries (format : JournalFormat) (entries : List Journal.Entry) : IO Unit := do
  for line in (⟨format, entries⟩ : Journal.Kept).lines do
    IO.println line
  (← IO.getStdout).flush

/-- The value of a header field. -/
def field? (head : Request.Head) (name : String) : Option String :=
  (Header.Name.ofString? name).bind fun name => (head.headers.get? name).map (·.value)

/-- The request that a client sends. -/
def readRequest (r : Request Body.Stream) : Async Api.Request := do
  let body : ByteArray ← r.body.readAll
  return {
    method := toString r.line.method
    target := toString r.line.uri
    contentType := field? r.line "content-type"
    id := field? r.line "x-request-id"
    body := Text.ofBytes body.toList }

/-- Sends a response. -/
def sendResponse (r : Api.Response) : Async (Response Body.Any) := do
  let status := (Status.ofCode none r.status.toUInt16).getD .internalServerError
  let named (b : Response.Builder) (name : String) (value : Option String) : Response.Builder :=
    match Header.Name.ofString? name, value.bind Header.Value.ofString? with
    | some name, some value => b.header name value
    | _, _ => b
  let head := named (Response.withStatus status) "cache-control" r.cacheControl
  let head := named head "x-request-id" r.requestId
  match r.body with
  | some body => return (← head.json body.compact : Response Body.Full)
  | none => return (← head.empty : Response Body.Empty)

/-- Answers a request. One request is answered at a time. -/
def Service.answer (s : Service) (r : Request Body.Stream) : Async (Response Body.Any) := do
  let request ← readRequest r
  let response ← s.state.atomically do
    let (planner, backend) ← get
    let (response, planner, backend) :=
      Api.handle (Backend.server noNetwork) backend.name planner backend request
    set (planner, backend)
    return response
  printEntries s.format (s.filter.apply response.entries)
  sendResponse response

instance : Server.Handler Service where
  ResponseBody := Body.Any
  onRequest s r := s.answer r

/-- Waits until the program is told to stop. -/
def waitForStop : Async Unit := do
  let interrupt ← Signal.Waiter.mk .sigint false
  let terminate ← Signal.Waiter.mk .sigterm false
  Selectable.one #[.case interrupt.selector pure, .case terminate.selector pure]

/-- Serves until the program is told to stop. Gives the exit code. -/
def serve (format : JournalFormat) (filter : Journal.Filter) (a : Application) : Async UInt32 := do
  let print (entries : List Journal.Entry) : IO Unit := printEntries format (filter.apply entries)
  let service : Service := ⟨format, filter, ← Mutex.new (a.planner, a.backend)⟩
  let address := Net.SocketAddress.v4 ⟨.ofParts 0 0 0 0, a.settings.port.toUInt16⟩
  try
    let server ← Server.serve address service
    print [Application.listeningNotice a.settings]
    waitForStop
    print (Application.stoppingNotices a.settings)
    server.shutdown
    return 0
  catch e =>
    print [Application.deafNotice a.settings (toString e)]
    return 1

/-- Prints how a run has ended. Gives the exit code. -/
def report (e : Ending) : IO UInt32 := do
  IO.print e.output
  if let some journal := e.journal? then printEntries journal.format journal.entries
  IO.eprint e.complaint
  return e.code.toUInt32

end Timetable.Command

/-- Runs the program. -/
def main (arguments : List String) : IO UInt32 := do
  match Timetable.Program.launch (← Timetable.Command.surroundings arguments) with
  | .ended e => Timetable.Command.report e
  | .up format filter application entries =>
    Timetable.Command.printEntries format (filter.apply entries)
    (Timetable.Command.serve format filter application).block
