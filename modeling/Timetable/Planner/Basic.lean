import Timetable.Demand
import Timetable.Selection
import Timetable.Store.Call

/-!
# The planner

The planner holds the plan that was fetched last and everything derived from it. It never talks to
the store: a change begins with a step that checks it and hands out a numbered ticket, and ends with
a step that takes the answer of the store. Between the two other changes may begin and end.

An answer is adopted as a whole, and only when no later request with the same key has been made and
no later answer has been adopted. Any other successful answer is dropped and leaves the plan marked
as stale, so that a plan which includes it is fetched again.
-/

namespace Timetable

/-- What a request is about. Only the newest request with a key may land. -/
inductive RequestKey where
  /-- The whole plan: load, refresh, adding a course, building, reset. -/
  | plan
  /-- One course: removing it, refreshing its sections. -/
  | course (courseId : Int)
  /-- The selection of one type group of one course. -/
  | selection (courseId : Int) (typeKey : String)
  deriving DecidableEq, Repr

/-- The course that a key is about. -/
def RequestKey.courseId? : RequestKey → Option Int
  | .plan => none
  | .course id => some id
  | .selection id _ => some id

/-- A numbered request. -/
structure Ticket where
  key : RequestKey
  seq : Nat
  /-- The term that the request is made for. It becomes the planner's only with the answer. -/
  term : Option String
  deriving DecidableEq, Repr

/-- A selection change that waits for the store. -/
structure PendingSelection where
  ticket : Ticket
  courseId : Int
  typeKey : String
  /-- All selected sections of the course after the change. -/
  sectionIds : List Int
  deriving DecidableEq, Repr

/-- What became of a successful answer. -/
inductive Outcome where
  /-- It replaced the held plan. -/
  | applied
  /-- A newer request or answer made it obsolete. -/
  | superseded
  deriving DecidableEq, Repr

/-- The name of an outcome. -/
def Outcome.name : Outcome → String
  | applied => "applied"
  | superseded => "superseded"

/-- Where the planner stands in its life. -/
inductive Phase where
  /-- No plan has been loaded. -/
  | idle
  /-- A load is on its way. -/
  | loading
  | ready
  deriving DecidableEq, Repr

/-- The name of a phase. -/
def Phase.name : Phase → String
  | idle => "idle"
  | loading => "loading"
  | ready => "ready"

/-- Why the planner refuses a request or reports its failure. -/
inductive PlannerError where
  | notReady
  | noTerm
  | unknownCourse (courseId : Int)
  | busy (courseId : Int) (typeKey : String)
  | selection (error : SelectionError)
  | store (error : Store.Error)
  deriving DecidableEq, Repr

/-- The wording of an error. -/
def PlannerError.message : PlannerError → String
  | notReady => "the plan has not been loaded yet"
  | noTerm => "no term given and none loaded"
  | unknownCourse courseId => "course " ++ toString courseId ++ " is not in the plan"
  | busy courseId typeKey =>
    "a selection change for " ++ typeKey ++ " sections of course " ++ toString courseId
      ++ " is already in flight"
  | selection error => error.message
  | store _ => "planner store request failed"

/-- Looks up the value of a key in a list of pairs. -/
def valueOf? {α : Type} [DecidableEq α] (key : α) : List (α × Nat) → Option Nat
  | [] => none
  | (k, v) :: rest => if k = key then some v else valueOf? key rest

/-- Gives a key a value, in place of the one that it has. -/
def setValue {α : Type} [DecidableEq α] (key : α) (value : Nat) : List (α × Nat) → List (α × Nat)
  | [] => [(key, value)]
  | (k, v) :: rest => if k = key then (key, value) :: rest else (k, v) :: setValue key value rest

/-- Takes the value of a key away. -/
def dropValue {α : Type} [DecidableEq α] (key : α) (values : List (α × Nat)) : List (α × Nat) :=
  values.filter (·.1 ≠ key)

/-- The state of the planner. -/
structure Planner where
  phase : Phase
  term : Option String
  plan : Plan
  conflicts : ConflictReport
  active : Option Int
  /-- The number of the newest ticket. -/
  lastSeq : Nat
  /-- The number of the newest ticket with each key. -/
  latest : List (RequestKey × Nat)
  /-- The number of the ticket whose answer is the held plan; zero when there was none. -/
  appliedSeq : Nat
  /-- The type groups with a selection change on its way, each with the number of its ticket. -/
  inFlight : List ((Int × String) × Nat)
  /-- Whether a successful answer was dropped. -/
  stale : Bool
  deriving DecidableEq

namespace Planner

/-- The planner before anything was loaded. -/
def new : Planner where
  phase := .idle
  term := none
  plan := .empty
  conflicts := .none
  active := none
  lastSeq := 0
  latest := []
  appliedSeq := 0
  inFlight := []
  stale := false

/-- Whether a plan has been loaded. -/
def isLoaded (p : Planner) : Bool := p.appliedSeq ≠ 0

/-- Fails until a plan has been loaded. -/
def ensureLoaded (p : Planner) : Except PlannerError Unit :=
  if p.isLoaded then .ok () else .error .notReady

/-- Whether a selection change of a type group is on its way. -/
def isMutating (p : Planner) (courseId : Int) (typeKey : String) : Bool :=
  (valueOf? (courseId, typeKey) p.inFlight).isSome

/-- The probability of the selected schedule. -/
def scheduleProbability (p : Planner) : Float :=
  Demand.scheduleProbability (p.plan.selection.map (·.chosen))

/-- Makes a course of the plan the active one, or none. -/
def setActive (p : Planner) (courseId : Option Int) : Except PlannerError Planner :=
  match courseId with
  | none => .ok { p with active := none }
  | some id =>
    if p.plan.hasCourse id then .ok { p with active := some id } else .error (.unknownCourse id)

/-- Whether a successful answer was dropped since the last time. Asking clears the mark. -/
def takeStale (p : Planner) : Bool × Planner := (p.stale, { p with stale := false })

/-! ## Beginning requests -/

/-- Hands out the next ticket. -/
def issue (p : Planner) (key : RequestKey) (term : Option String) : Ticket × Planner :=
  let seq := p.lastSeq + 1
  (⟨key, seq, term⟩, { p with lastSeq := seq, latest := setValue key seq p.latest })

/-- Begins to load the plan of a term, or of the held term. -/
def beginLoad (p : Planner) (term : Option String) : Ticket × Planner :=
  { p with phase := .loading }.issue .plan (term.or p.term)

/-- Begins a request for the held term. A plan must have been loaded, and the course that the key is
about must be in it. -/
def begin (p : Planner) (key : RequestKey) : Except PlannerError (Ticket × Planner) := do
  p.ensureLoaded
  match key.courseId? with
  | some id => if p.plan.hasCourse id then pure () else throw (.unknownCourse id)
  | none => pure ()
  return p.issue key p.term

/-- Begins a selection change. Its type group is then in flight until the change completes. -/
def beginSelection (p : Planner) (courseId : Int) (typeKey : String) (choice : Option Int) :
    Except PlannerError (PendingSelection × Planner) := do
  p.ensureLoaded
  if p.isMutating courseId typeKey then throw (.busy courseId typeKey)
  let next ← (p.plan.trySelect courseId typeKey choice).mapError PlannerError.selection
  let sectionIds := p.plan.courseSelection courseId next
  let (ticket, p) := p.issue (.selection courseId typeKey) p.term
  return (⟨ticket, courseId, typeKey, sectionIds⟩,
    { p with inFlight := setValue (courseId, typeKey) ticket.seq p.inFlight })

/-! ## Completing requests -/

/-- Whether no later ticket with the same key was handed out. -/
def isLatest (p : Planner) (ticket : Ticket) : Bool :=
  valueOf? ticket.key p.latest = some ticket.seq

/-- Makes an answer the held plan. -/
def apply (p : Planner) (r : PlanRecord) (ticket : Ticket) : Planner :=
  let plan := Plan.ofRecord r
  { p with
    plan := plan
    conflicts := plan.conflicts
    active := p.active.filter plan.hasCourse
    term := (plan.term.or ticket.term).or p.term
    appliedSeq := ticket.seq }

/-- Adopts or drops the answer to a ticket. -/
def adopt (p : Planner) (ticket : Ticket) (reply : Except Store.Error PlanRecord) :
    Except PlannerError Outcome × Planner :=
  match reply with
  | .error e => (.error (.store e), p)
  | .ok r =>
    if p.isLatest ticket ∧ p.appliedSeq < ticket.seq then (.ok .applied, p.apply r ticket)
    else (.ok .superseded, { p with stale := true })

/-- Ends a load: the planner is ready if it ever got a plan. -/
def finishLoading (p : Planner) : Planner :=
  match p.phase with
  | .loading => { p with phase := if p.isLoaded then .ready else .idle }
  | _ => p

/-- Takes the answer to a ticket. The newest request for the whole plan ends a load in any case, so
the planner is not left loading when no load can land. -/
def complete (p : Planner) (ticket : Ticket) (reply : Except Store.Error PlanRecord) :
    Except PlannerError Outcome × Planner :=
  let endsLoad := p.isLatest ticket && ticket.key = .plan
  let (outcome, p) := p.adopt ticket reply
  (outcome, if endsLoad then p.finishLoading else p)

/-- Frees the type group of a selection change, unless a newer change has taken it. -/
def release (p : Planner) (pending : PendingSelection) : Planner :=
  if valueOf? (pending.courseId, pending.typeKey) p.inFlight = some pending.ticket.seq then
    { p with inFlight := dropValue (pending.courseId, pending.typeKey) p.inFlight }
  else p

/-- Takes the answer to a selection change. -/
def completeSelection (p : Planner) (pending : PendingSelection)
    (reply : Except Store.Error PlanRecord) : Except PlannerError Outcome × Planner :=
  (p.release pending).complete pending.ticket reply

end Planner

end Timetable
