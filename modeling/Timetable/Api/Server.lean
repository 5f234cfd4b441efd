import Timetable.Api.Fault
import Timetable.Api.Input
import Timetable.Api.Route
import Timetable.Service
import Timetable.View

/-!
# The API

A request is routed, read, and carried out by the planner, which may call its store. The answer is
the plan as it then is. Every answer is reported.
-/

namespace Timetable.Api

open Journal (Entry)

/-- The version of the program. -/
def version : String := "0.3.0"

/-- How answers about the plan are to be kept: not at all. -/
def privateAnswer : String := "private, no-store, must-revalidate"

/-- An answer of the API. -/
structure Response where
  status : Nat
  cacheControl : Option String
  /-- The id of the request, when the client's is taken over. Otherwise one is made up. -/
  requestId : Option String
  body : Option Json.Value
  /-- What has been reported. -/
  entries : List Entry

/-- What a request comes to. -/
inductive Result where
  | rejected (why : Rejection)
  | failed (why : Fault)
  /-- Permission for a page of another origin. -/
  | permission
  | done (body : Json.Value) (entries : List Entry)

namespace Result

/-- The status of a result. -/
def status : Result → Nat
  | rejected why => why.status
  | failed why => why.code.status
  | permission | done .. => 200

/-- The body of a result. -/
def body : Result → Option Json.Value
  | rejected _ | permission => none
  | failed why => some why.toJson
  | done body _ => some body

/-- What a result reports. -/
def entries : Result → List Entry
  | rejected _ | permission => []
  | failed why => why.notices
  | done _ entries => entries

end Result

/-- What a request asks of the planner, once everything in it has been read. -/
inductive Wish where
  | health
  | showPlan
  | showActive
  | setActive (courseId : Option Int)
  /-- Carries an operation out, then shows the plan. -/
  | perform (op : Operation)
  | refuse (why : Fault)

/-- The wish for a course to be added. Its code is not blank. -/
def AddCourse.wish (r : AddCourse) : Wish :=
  let code := Text.trim r.code
  if code = "" then .refuse ⟨.badRequest, "course code is required"⟩
  else .perform (.addCourse code r.term)

/-- Reads what an action needs: first the id, then the parameters, then the body. -/
def Action.wish (r : Request) : Action → Except Rejection Wish
  | .health => .ok .health
  | .showPlan => .ok .showPlan
  | .refreshPlan => do return .perform (.load (← parameter? "term" r.parameters))
  | .autoBuild => .ok (.perform .autoBuild)
  | .reset => do return .perform (.reset (← r.readOptional resetLayout none))
  | .showActive => .ok .showActive
  | .setActive => do return .setActive (← r.read activeLayout)
  | .addCourse => do return (← r.read addCourseLayout).wish
  | .removeCourse id => do return .perform (.removeCourse (← readId id))
  | .refreshCourse id => do
    let id ← readId id
    return .perform (.refreshCourse id (← flagParameter "force" r.parameters))
  | .selectSection id => do
    let id ← readId id
    let change ← r.read changeSelectionLayout
    return .perform (.select id change.typeKey change.sectionId)

/-- The method whose action a method asks for. -/
def methodOf (r : Request) : String := if r.method = "HEAD" then "GET" else r.method

/-- The state of the program in an answer. -/
def healthJson (p : Planner) (store : String) : Json.Value :=
  .object
    [("status", .text "healthy"), ("version", .text version), ("planner", .text p.phase.name),
     ("store", .text store)]

/-- The active course in an answer. -/
def activeJson (courseId : Option Int) : Json.Value :=
  .object [("courseId", .ofOption .integer courseId)]

/-- The answer to an operation that succeeded. -/
def successResult (p : Planner) : Success → Result
  | .outcome _ => .done p.view.toJson []
  | .built summary =>
    .done
      (.object
        [("message", .text summary.message), ("unplaced", .list (summary.unplaced.map .text)),
         ("plan", p.view.toJson)])
      [{ level := .info, target := "planner::web::planner", message := summary.message
         fields := [("unplaced", .number summary.unplaced.length)] }]

/-- Grants a wish. `store` names the kind of the store. -/
def Wish.grant {σ : Type} (serve : Server σ) (store : String) (p : Planner) (state : σ) :
    Wish → Result × Planner × σ
  | .health =>
    (.done (healthJson p store)
      [{ level := .trace, target := "planner::web::routes", message := "health check requested" }],
      p, state)
  | .showPlan => (.done p.view.toJson [], p, state)
  | .showActive => (.done (activeJson p.active) [], p, state)
  | .setActive courseId =>
    match p.setActive courseId with
    | .ok p => (.done (activeJson courseId) [], p, state)
    | .error e => (.failed (.ofPlanner e), p, state)
  | .perform op =>
    match p.perform serve state op with
    | (.ok success, p, state) => (successResult p success, p, state)
    | (.error e, p, state) => (.failed (.ofPlanner e), p, state)
  | .refuse why => (.failed why, p, state)

/-- Whether the id that a client gives a request is taken over. -/
def isUsableId (id : String) : Bool :=
  id ≠ "" && id.toList.all MediaType.isFieldChar && id.length ≤ 128

/-- How much an answer matters. -/
def levelOf (status : Nat) : Journal.Level :=
  if status < 400 then .debug else if status < 500 then .info else .warn

/-- Reports an answer. -/
def responseEntry (r : Request) (status : Nat) : Entry where
  level := levelOf status
  target := "planner::web::middleware::request_id"
  message := "Response"
  fields :=
    [("method", .shown r.method), ("path", .shown (String.ofList r.path)),
     ("status", .number status)]

/-- The answer that a result makes. The answer to `HEAD` has no body. -/
def respond (r : Request) (route : Option Route) (result : Result) : Response where
  status := result.status
  cacheControl := if route.any Route.isPrivate then some privateAnswer else none
  requestId := r.id.filter isUsableId
  body := if r.method = "HEAD" then none else result.body
  entries := result.entries ++ [responseEntry r result.status]

/-- Answers a request. A page of another origin may ask for permission at any address. -/
def handle {σ : Type} (serve : Server σ) (store : String) (p : Planner) (state : σ) (r : Request) :
    Response × Planner × σ :=
  if r.method = "OPTIONS" then (respond r none .permission, p, state)
  else
    match Route.ofPath? r.path with
    | none => (respond r none (.rejected .noRoute), p, state)
    | some route =>
      match route.action? (methodOf r) with
      | none => (respond r route (.rejected .noMethod), p, state)
      | some action =>
        match action.wish r with
        | .error why => (respond r route (.rejected why), p, state)
        | .ok wish =>
          let (result, p, state) := wish.grant serve store p state
          (respond r route result, p, state)

end Timetable.Api
