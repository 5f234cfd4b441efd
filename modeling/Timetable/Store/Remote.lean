import Timetable.Json.Value
import Timetable.Store.Call
import Timetable.Text.Utf8
import Timetable.Url.Basic

/-!
# A store on the network

A store can be reached at an address. A call becomes a request to an address below it, and the
response, if one comes, becomes the answer to the call.
-/

namespace Timetable.Store

/-- A store on the network. Its address is a folder. -/
structure Remote where
  base : Url
  deriving DecidableEq, Repr

namespace Remote

/-- The store at an address. -/
def ofUrl (base : Url) : Remote := ⟨base.asFolder⟩

/-- What a request does to its address. -/
inductive Method where
  | get | post | put | delete
  deriving DecidableEq, Repr

/-- The name of a method. -/
def Method.name : Method → String
  | get => "GET" | post => "POST" | put => "PUT" | delete => "DELETE"

/-- A request to the store. -/
structure Request where
  method : Method
  url : Url
  /-- The JSON text that goes along. -/
  body : Option String
  deriving DecidableEq, Repr

/-- The media type of the JSON text that goes along with a request. -/
def contentType : String := "application/json"

/-- By which name the program makes itself known to the store. -/
def agent : String := "planner/0.3.0"

/-! ## From a call to a request -/

/-- What a call is, apart from the address of the store. -/
structure Shape where
  method : Method
  path : String
  query : Option String := none
  body : Option Json.Value := none
  /-- The wording for the call in errors. -/
  label : String

/-- The path of a course. -/
def coursePath (courseId : Int) : String := "plan/courses/" ++ toString courseId

open Json.Value in
/-- The shape of a call. -/
def shape : {k : Kind} → Call k → Shape
  | _, .fetchPlan term =>
    { method := .get, path := "plan", label := "fetch plan", query := term.map (Url.formPair "term") }
  | _, .addCourse code term =>
    { method := .post, path := "plan/courses", label := "add course"
      body := some (object [("code", text code), ("term", text term)]) }
  | _, .removeCourse courseId =>
    { method := .delete, path := coursePath courseId, label := "remove course" }
  | _, .refreshSections courseId force =>
    { method := .post, path := coursePath courseId ++ "/refresh", label := "refresh sections"
      query := some (Url.formPair "force" (if force then "true" else "false")) }
  | _, .selectSections courseId sectionIds =>
    { method := .put, path := coursePath courseId ++ "/selection", label := "select sections"
      body := some (object [("section_ids", list (sectionIds.map integer))]) }
  | _, .autoBuild => { method := .post, path := "plan/auto-build", label := "auto-build" }
  | _, .reset term =>
    { method := .post, path := "plan/reset", label := "reset plan"
      body := some (object [("term", ofOption text term)]) }

/-- Whether requests can be made to addresses of a scheme. -/
def isReachable (scheme : String) : Bool := scheme = "http" || scheme = "https"

/-- The request of a call, or why none can be made. -/
def request {k : Kind} (r : Remote) (call : Call k) : Except Error Request :=
  let s := shape call
  match r.base.extend s.path with
  | .error e => .error (.invalid ("bad endpoint " ++ s.path ++ ": " ++ e.message))
  | .ok url =>
    let url := { url.withoutUser with query := s.query }
    if isReachable url.scheme then .ok ⟨s.method, url, s.body.map Json.Value.compact⟩
    else .error (.requestFailed (.unsupported url.text))

/-! ## From a response to an answer -/

/-- The body of a response as it arrives. -/
inductive Body where
  | complete (bytes : List UInt8)
  | brokenOff

/-- What comes of a request. -/
inductive Exchange where
  /-- The connection ended without a response. -/
  | unanswered
  | answered (status : Nat) (body : Body)

/-- The body that arrives when a number of bytes is announced: what is sent beyond it does not
count. -/
def Body.received (announced : Nat) (sent : List UInt8) : Body :=
  if announced ≤ sent.length then .complete (sent.take announced) else .brokenOff

/-- Whether responses with a status never have a body. -/
def isBodiless (status : Nat) : Bool := status = 101 || status = 204 || status = 304

/-- Whether a response with a status is only provisional: another one follows. -/
def isProvisional (status : Nat) : Bool := 100 ≤ status && status < 200 && status ≠ 101

/-- A response on a connection that ends behind it. -/
def Exchange.ofResponse (status announced : Nat) (sent : List UInt8) : Exchange :=
  if isProvisional status then .unanswered
  else if isBodiless status then .answered status (.complete [])
  else .answered status (.received announced sent)

/-- The text of a body. A byte order mark at its start does not belong to it. -/
def textOf (bytes : List UInt8) : String :=
  match (Text.ofBytes bytes).toList with
  | '\ufeff' :: rest => String.ofList rest
  | s => String.ofList s

/-- The text of a body; one that broke off counts as empty. -/
def Body.textOrEmpty : Body → String
  | complete bytes => textOf bytes
  | brokenOff => ""

/-- The error of a response without success. -/
def refusal (label : String) (status : Nat) (body : Body) : Error :=
  let message := body.textOrEmpty
  if status = 404 then .notFound (if message = "" then label else message)
  else .rejected status message

/-- Reads the answer from the body of a response. -/
def readBody {α σ : Type} (layout : Json.Layout σ α) (url : String) (status : Nat) :
    Body → Except Error α
  | .brokenOff => .error (.requestFailed (.brokenOff url))
  | .complete bytes => (Json.decode layout.read (textOf bytes)).mapError (.parseFailed status url)

/-- Whether a status means success. -/
def isSuccess (status : Nat) : Bool := 200 ≤ status && status < 300

/-- The answer to a call that a response makes. -/
def answer {k : Kind} (call : Call k) (url : String) (exchange : Exchange) : Reply k :=
  match exchange with
  | .unanswered => .error (.requestFailed (.unanswered url))
  | .answered status body =>
    if isSuccess status then
      match k with
      | .plan => readBody Json.planLayout url status body
      | .summary => readBody Json.summaryLayout url status body
      | .done => .ok ()
    else .error (refusal (shape call).label status body)

/-- Answers a call over a network. -/
def serve {k : Kind} (r : Remote) (network : Request → Exchange) (call : Call k) : Reply k :=
  match r.request call with
  | .error e => .error e
  | .ok request => answer call request.url.text (network request)

end Remote

end Timetable.Store
