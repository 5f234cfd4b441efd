/-!
# Routes

The addresses of the API with the methods that each of them takes. The address of a course holds its
id as it was written; it is read later.
-/

namespace Timetable.Api

/-- An address of the API. -/
inductive Route where
  | health
  | plan
  | refresh
  | autoBuild
  | reset
  | active
  | courses
  | course (id : String)
  | courseRefresh (id : String)
  | courseSelection (id : String)
  deriving DecidableEq, Repr

/-- The parts of a path between slashes. -/
def pathParts (path : List Char) : List String := go path []
where
  go : List Char → List Char → List String
    | [], part => [String.ofList part.reverse]
    | c :: rest, part =>
      if c = '/' then String.ofList part.reverse :: go rest [] else go rest (c :: part)

/-- The route of a path. An id is never empty. -/
def Route.ofPath? (path : List Char) : Option Route :=
  match pathParts path with
  | ["", "api", "health"] => some .health
  | ["", "api", "plan"] => some .plan
  | ["", "api", "plan", "refresh"] => some .refresh
  | ["", "api", "plan", "auto-build"] => some .autoBuild
  | ["", "api", "plan", "reset"] => some .reset
  | ["", "api", "plan", "active"] => some .active
  | ["", "api", "courses"] => some .courses
  | ["", "api", "courses", id] => if id = "" then none else some (.course id)
  | ["", "api", "courses", id, "refresh"] => if id = "" then none else some (.courseRefresh id)
  | ["", "api", "courses", id, "selection"] =>
    if id = "" then none else some (.courseSelection id)
  | _ => none

/-- Whether answers of a route may be kept nowhere. -/
def Route.isPrivate : Route → Bool
  | health => false
  | _ => true

/-- What a request asks for. -/
inductive Action where
  | health
  | showPlan
  | refreshPlan
  | autoBuild
  | reset
  | showActive
  | setActive
  | addCourse
  | removeCourse (id : String)
  | refreshCourse (id : String)
  | selectSection (id : String)
  deriving DecidableEq, Repr

/-- What a method asks of a route, if the route takes it. -/
def Route.action? (method : String) : Route → Option Action
  | health => if method = "GET" then some .health else none
  | plan => if method = "GET" then some .showPlan else none
  | refresh => if method = "POST" then some .refreshPlan else none
  | autoBuild => if method = "POST" then some .autoBuild else none
  | reset => if method = "POST" then some .reset else none
  | active =>
    if method = "GET" then some .showActive
    else if method = "PUT" then some .setActive
    else none
  | courses => if method = "POST" then some .addCourse else none
  | course id => if method = "DELETE" then some (.removeCourse id) else none
  | courseRefresh id => if method = "POST" then some (.refreshCourse id) else none
  | courseSelection id => if method = "PUT" then some (.selectSection id) else none

end Timetable.Api
