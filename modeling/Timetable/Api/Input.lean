import Timetable.Api.MediaType
import Timetable.Json.Interchange
import Timetable.Url.Form

/-!
# What comes with a request

A request can carry an id in its path, parameters in its query and a JSON body. What cannot be read
is answered with a status alone.
-/

namespace Timetable.Api

/-- A request to the API. -/
structure Request where
  method : String
  /-- The path, and the query behind a question mark. -/
  target : String
  contentType : Option String := none
  /-- The id that the client gives the request. -/
  id : Option String := none
  body : String := ""
  deriving DecidableEq, Repr

namespace Request

/-- The part of the target before a fragment. -/
def address (r : Request) : List Char := r.target.toList.takeWhile (· ≠ '#')

/-- The path as it was written. -/
def path (r : Request) : List Char := r.address.takeWhile (· ≠ '?')

/-- The query without its question mark. -/
def query (r : Request) : List Char := (r.address.dropWhile (· ≠ '?')).drop 1

/-- The parameters of the query. -/
def parameters (r : Request) : List (String × String) := Url.readForm r.query

end Request

/-- Why a request is not understood. -/
inductive Rejection where
  | noRoute
  | noMethod
  | badId
  | badParameter
  | notJson
  | malformedBody
  | wrongBody
  deriving DecidableEq, Repr

/-- The status of a rejection. -/
def Rejection.status : Rejection → Nat
  | noRoute => 404
  | noMethod => 405
  | badId | badParameter | malformedBody => 400
  | notJson => 415
  | wrongBody => 422

/-! ## Ids and parameters -/

/-- The integer that digits behind an optional sign write, if it is an id. -/
def integer? (s : String) : Option Int :=
  let value := match s.toList with
    | '-' :: digits => (Text.natural? digits).map fun n => -(n : Int)
    | '+' :: digits => (Text.natural? digits).map fun n => (n : Int)
    | digits => (Text.natural? digits).map fun n => (n : Int)
  value.filter fun n => minId ≤ n && n ≤ maxId

/-- Reads an id from a path. -/
def readId (written : String) : Except Rejection Int :=
  match (Url.decode? written.toList).bind integer? with
  | some id => .ok id
  | none => .error .badId

/-- The value of a parameter. No parameter is given twice. -/
def parameter? (name : String) (given : List (String × String)) :
    Except Rejection (Option String) :=
  match given.filter (·.1 = name) with
  | [] => .ok none
  | [(_, value)] => .ok (some value)
  | _ => .error .badParameter

/-- A parameter that is a flag, and not set when it is not given. -/
def flagParameter (name : String) (given : List (String × String)) : Except Rejection Bool := do
  match ← parameter? name given with
  | none => return false
  | some "true" => return true
  | some "false" => return false
  | some _ => throw .badParameter

/-! ## Bodies -/

/-- A request to add a course. -/
structure AddCourse where
  code : String
  term : Option String
  deriving DecidableEq, Repr

/-- A request for another selection in a type group. -/
structure ChangeSelection where
  typeKey : String
  sectionId : Option Int
  deriving DecidableEq, Repr

/-- The fields of a request body that have been read. -/
structure BodyDraft where
  code : Option String := none
  term : Option (Option String) := none
  typeKey : Option String := none
  sectionId : Option (Option Int) := none
  courseId : Option (Option Int) := none

open Json (Layout)

/-- The field for a term. -/
def termField : Json.Field BodyDraft :=
  (Json.Field.of "term" false (·.term) (fun x d => { d with term := some x })
    (Json.nullable Json.text)).inListOnly

/-- The layout of a request to add a course. -/
def addCourseLayout : Layout BodyDraft AddCourse where
  title := "AddCourseRequest"
  fields :=
    [.of "code" true (·.code) (fun x d => { d with code := some x }) Json.text, termField]
  blank := {}
  finish d := d.code.map fun code => ⟨code, d.term.getD none⟩

/-- The layout of a request for another selection. -/
def changeSelectionLayout : Layout BodyDraft ChangeSelection where
  title := "SelectionRequest"
  fields :=
    [.of "typeKey" true (·.typeKey) (fun x d => { d with typeKey := some x }) Json.text,
     (Json.Field.of "sectionId" false (·.sectionId) (fun x d => { d with sectionId := some x })
      (Json.nullable Json.anId)).inListOnly]
  blank := {}
  finish d := d.typeKey.map fun key => ⟨key, d.sectionId.getD none⟩

/-- The layout of a request to empty the plan. -/
def resetLayout : Layout BodyDraft (Option String) where
  title := "ResetRequest"
  fields := [termField]
  blank := {}
  finish d := some (d.term.getD none)

/-- The layout of a request for another active course. -/
def activeLayout : Layout BodyDraft (Option Int) where
  title := "ActiveCourse"
  fields :=
    [(Json.Field.of "courseId" false (·.courseId) (fun x d => { d with courseId := some x })
      (Json.nullable Json.anId)).inListOnly]
  blank := {}
  finish d := some (d.courseId.getD none)

/-- Reads a JSON text. One that is no JSON is malformed; else its data is wrong. -/
def readJson {σ α : Type} (layout : Layout σ α) (body : String) : Except Rejection α :=
  match Json.decodeWhole layout.read body with
  | .ok value => .ok value
  | .error fault => .error (if fault.cause.isData then .wrongBody else .malformedBody)

/-- Reads the body of a request. Its media type means JSON. -/
def Request.read {σ α : Type} (r : Request) (layout : Layout σ α) : Except Rejection α :=
  if r.contentType.any MediaType.isJson then readJson layout r.body else .error .notJson

/-- Reads the body of a request that need not have one: without a media type there is none. -/
def Request.readOptional {σ α : Type} (r : Request) (layout : Layout σ α) (default : α) :
    Except Rejection α :=
  if r.contentType.isNone then .ok default else r.read layout

end Timetable.Api
