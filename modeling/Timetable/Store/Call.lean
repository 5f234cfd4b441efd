import Timetable.Json.Interchange

/-!
# Calls to a plan store

A store keeps plans and answers calls. A call is answered with the plan after the change, with the
summary of a build, or with nothing but success; its type says with which.
-/

namespace Timetable

/-- The outcome of building a plan in the store. -/
structure BuildSummary where
  message : String
  /-- The codes of the courses that could not be placed without a clash. -/
  unplaced : List String
  deriving DecidableEq, Repr

namespace Store

/-- With what a call is answered. -/
inductive Kind where
  | plan | summary | done
  deriving DecidableEq, Repr

/-- The answers of a kind. -/
@[reducible] def Kind.Answer : Kind → Type
  | plan => PlanRecord
  | summary => BuildSummary
  | done => Unit

/-- A call to the store. -/
inductive Call : Kind → Type where
  /-- Fetches the plan, of one term when one is given. -/
  | fetchPlan (term : Option String) : Call .plan
  /-- Adds a course of the catalog to a term. -/
  | addCourse (code term : String) : Call .plan
  | removeCourse (courseId : Int) : Call .done
  /-- Reads the sections of a course again; `force` goes past what the store remembers. -/
  | refreshSections (courseId : Int) (force : Bool) : Call .plan
  /-- Replaces the selected sections of a course. -/
  | selectSections (courseId : Int) (sectionIds : List Int) : Call .plan
  /-- Picks sections that do not clash for every kind of every course. -/
  | autoBuild : Call .summary
  /-- Removes every course, or those of one term. -/
  | reset (term : Option String) : Call .done

/-- What went wrong on the way to a remote store. -/
inductive Failure where
  /-- No request can be made to an address of this kind. -/
  | unsupported (url : String)
  /-- No answer came to the request. -/
  | unanswered (url : String)
  /-- The answer broke off. -/
  | brokenOff (url : String)
  deriving DecidableEq, Repr

/-- The wording of a failure. -/
def Failure.message : Failure → String
  | unsupported url => "builder error for url (" ++ url ++ ")"
  | unanswered url => "error sending request for url (" ++ url ++ ")"
  | brokenOff url => "error decoding response body for url (" ++ url ++ ")"

/-- Why a store does not answer a call. -/
inductive Error where
  | notFound (what : String)
  | invalid (why : String)
  | rejected (status : Nat) (message : String)
  | parseFailed (status : Nat) (url : String) (fault : Json.DecodeError)
  | requestFailed (failure : Failure)
  | seed (why : String)
  deriving DecidableEq, Repr

namespace Error

/-- The wording of an error. -/
def message : Error → String
  | notFound what => what ++ " not found"
  | invalid why => "invalid request: " ++ why
  | rejected status message =>
    "planner store rejected the request (" ++ toString status ++ "): " ++ message
  | parseFailed .. => "Failed to parse planner store response"
  | requestFailed failure => failure.message
  | seed why => "failed to read seed file: " ++ why

/-- Whether the store refused the request on its merits. Otherwise no usable answer came. -/
def isClientError : Error → Bool
  | notFound _ | invalid _ => true
  | rejected status _ => 400 ≤ status && status < 500
  | _ => false

end Error

/-- What a store gives to a call of a kind. -/
abbrev Reply (k : Kind) : Type := Except Error k.Answer

end Store

namespace Json

/-- The fields of a build summary that have been read. -/
structure SummaryDraft where
  message : Option String := none
  unplaced : Option (List String) := none

/-- The layout of a build summary. -/
def summaryLayout : Layout SummaryDraft BuildSummary where
  title := "AutoBuildResult"
  fields :=
    [.of "message" true (·.message) (fun x d => { d with message := some x }) text,
     .of "unplaced" false (·.unplaced) (fun x d => { d with unplaced := some x }) (list text)]
  blank := {}
  finish d := d.message.map fun message => ⟨message, d.unplaced.getD []⟩

end Json

end Timetable
