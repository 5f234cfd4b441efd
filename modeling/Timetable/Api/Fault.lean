import Timetable.Journal.Entry
import Timetable.Planner.Basic

/-!
# Faults of the API

What the planner refuses is answered with a status, a code and a message.
-/

namespace Timetable.Api

/-- The kind of a fault. -/
inductive FaultCode where
  | badRequest | notFound | notReady | busy | invalidSelection | storeRejected | storeUnavailable
  deriving DecidableEq, Repr

namespace FaultCode

/-- The name of a kind. -/
def name : FaultCode → String
  | badRequest => "BAD_REQUEST"
  | notFound => "NOT_FOUND"
  | notReady => "NOT_READY"
  | busy => "BUSY"
  | invalidSelection => "INVALID_SELECTION"
  | storeRejected => "STORE_REJECTED"
  | storeUnavailable => "STORE_UNAVAILABLE"

/-- The status of a kind. -/
def status : FaultCode → Nat
  | badRequest | invalidSelection => 400
  | notFound => 404
  | notReady | busy => 409
  | storeRejected | storeUnavailable => 502

end FaultCode

/-- An answer that says why a request failed. -/
structure Fault where
  code : FaultCode
  message : String
  deriving DecidableEq, Repr

namespace Fault

/-- The fault of an error of the store. What the store refuses on its merits is the fault of the
request. -/
def ofStore (e : Store.Error) : Fault :=
  match e with
  | .notFound _ => ⟨.notFound, e.message⟩
  | .invalid why => ⟨.badRequest, why⟩
  | .rejected .. => ⟨if e.isClientError then .badRequest else .storeRejected, e.message⟩
  | .parseFailed .. | .requestFailed _ | .seed _ => ⟨.storeUnavailable, e.message⟩

/-- The fault of an error of the planner. -/
def ofPlanner (e : PlannerError) : Fault :=
  match e with
  | .notReady => ⟨.notReady, e.message⟩
  | .noTerm => ⟨.badRequest, e.message⟩
  | .unknownCourse _ => ⟨.notFound, e.message⟩
  | .busy .. => ⟨.busy, e.message⟩
  | .selection s => ⟨.invalidSelection, s.message⟩
  | .store s => ofStore s

/-- A fault in an answer. -/
def toJson (f : Fault) : Json.Value :=
  .object [("code", .text f.code.name), ("message", .text f.message)]

/-- What is reported of a fault: a store that gives no usable answer. -/
def notices (f : Fault) : List Journal.Entry :=
  match f.code with
  | .storeUnavailable =>
    [{ level := .warn, target := "planner::web::error", message := "Planner store unavailable" }]
  | _ => []

end Fault

end Timetable.Api
