import Timetable.Planner.Basic
import Timetable.Store.Memory

/-!
# Operations of the planner service

An operation begins at the planner, makes its calls to the store, and completes at the planner. It
runs in steps: between a call and the step that takes the answer, other operations may take steps of
their own. A step is a function of the planner, so every order of the steps of several operations
is a list of such functions. Main statement: the number of calls that are still to come falls with
every answer (`Stage.calls_resume_lt`), so an operation ends.
-/

namespace Timetable

/-- What can be asked of the planner service. -/
inductive Operation where
  /-- Loads the plan of a term, or of the term that is loaded. -/
  | load (term : Option String)
  | refresh
  /-- Replaces the selection of one type group. No choice clears it. -/
  | select (courseId : Int) (typeKey : String) (choice : Option Int)
  /-- Adds a catalog course to a term, or to the term that is loaded. -/
  | addCourse (code : String) (term : Option String)
  | removeCourse (courseId : Int)
  | refreshCourse (courseId : Int) (force : Bool)
  | autoBuild
  | reset (term : Option String)
  deriving DecidableEq, Repr

/-- With what an operation succeeds. -/
inductive Success where
  | outcome (outcome : Outcome)
  | built (summary : BuildSummary)
  deriving DecidableEq, Repr

/-- What an operation does with the answer that it waits for. -/
inductive Stage : Store.Kind → Type where
  /-- Completes a ticket. A summary, when there is one, is the result. -/
  | adopt (ticket : Ticket) (summary : Option BuildSummary) : Stage .plan
  /-- Completes a selection change. -/
  | adoptSelection (pending : PendingSelection) : Stage .plan
  /-- Fetches the plan behind a change that is answered with nothing. -/
  | refetch (ticket : Ticket) : Stage .done
  /-- Fetches the plan that was built. -/
  | collect : Stage .summary
  /-- Completes the load that makes up for a dropped answer. -/
  | reload (result : Success) (ticket : Ticket) : Stage .plan

/-- Where an operation stands: it waits for the answer to a call, or it has ended. -/
inductive Progress where
  | waiting {k : Store.Kind} (call : Store.Call k) (stage : Stage k)
  | finished (result : Except PlannerError Success)

namespace Planner

/-- Ends an operation. When a successful answer was dropped along the way, the plan is loaded once
more first. -/
def settle (p : Planner) (result : Success) : Planner × Progress :=
  match p.takeStale with
  | (true, p) =>
    let (ticket, p) := p.beginLoad none
    (p, .waiting (.fetchPlan ticket.term) (.reload result ticket))
  | (false, p) => (p, .finished (.ok result))

/-- Goes on after a completion: a failure ends the operation. -/
def settleOutcome (completed : Except PlannerError Outcome × Planner)
    (summary : Option BuildSummary) : Planner × Progress :=
  match completed with
  | (.error e, p) => (p, .finished (.error e))
  | (.ok outcome, p) =>
    p.settle (match summary with | some s => .built s | none => .outcome outcome)

/-- Refuses an operation. -/
def refuse (p : Planner) (e : PlannerError) : Planner × Progress := (p, .finished (.error e))

/-- Begins a request and calls the store. -/
def beginCall (p : Planner) (key : RequestKey) {k : Store.Kind} (call : Ticket → Store.Call k)
    (stage : Ticket → Stage k) : Planner × Progress :=
  match p.begin key with
  | .error e => p.refuse e
  | .ok (ticket, p) => (p, .waiting (call ticket) (stage ticket))

/-- The term of a course to add: the one that is given, else the loaded one. -/
def termFor (p : Planner) (term : Option String) : Except PlannerError String := do
  p.ensureLoaded
  match term.or p.term with
  | some t => return t
  | none => throw .noTerm

/-- The first step of an operation. -/
def start (p : Planner) : Operation → Planner × Progress
  | .load term =>
    let (ticket, p) := p.beginLoad term
    (p, .waiting (.fetchPlan ticket.term) (.adopt ticket none))
  | .refresh => p.beginCall .plan (fun t => .fetchPlan t.term) (fun t => .adopt t none)
  | .select courseId typeKey choice =>
    match p.beginSelection courseId typeKey choice with
    | .error e => p.refuse e
    | .ok (pending, p) =>
      (p, .waiting (.selectSections courseId pending.sectionIds) (.adoptSelection pending))
  | .addCourse code term =>
    match p.termFor term with
    | .error e => p.refuse e
    | .ok term => p.beginCall .plan (fun _ => .addCourse code term) (fun t => .adopt t none)
  | .removeCourse courseId =>
    p.beginCall (.course courseId) (fun _ => .removeCourse courseId) .refetch
  | .refreshCourse courseId force =>
    p.beginCall (.course courseId) (fun _ => .refreshSections courseId force)
      (fun t => .adopt t none)
  | .autoBuild =>
    match p.ensureLoaded with
    | .error e => p.refuse e
    | .ok () => (p, .waiting .autoBuild .collect)
  | .reset term => p.beginCall .plan (fun _ => .reset term) .refetch

/-- The step that takes the answer to a call. -/
def resume (p : Planner) : {k : Store.Kind} → Stage k → Store.Reply k → Planner × Progress
  | _, .adopt ticket summary, reply => settleOutcome (p.complete ticket reply) summary
  | _, .adoptSelection pending, reply => settleOutcome (p.completeSelection pending reply) none
  | _, .refetch ticket, .ok () => (p, .waiting (.fetchPlan ticket.term) (.adopt ticket none))
  | _, .refetch ticket, .error e => settleOutcome (p.complete ticket (.error e)) none
  | _, .collect, .ok summary =>
    p.beginCall .plan (fun t => .fetchPlan t.term) (fun t => .adopt t (some summary))
  | _, .collect, .error e => p.refuse (.store e)
  | _, .reload result ticket, reply =>
    match p.complete ticket reply with
    | (.error e, p) => (p, .finished (.error e))
    | (.ok _, p) => (p, .finished (.ok result))

end Planner

/-! ## Running an operation on its own -/

/-- The greatest number of calls from a stage on, with the one that it waits for. -/
def Stage.calls : {k : Store.Kind} → Stage k → Nat
  | _, .adopt .. => 2
  | _, .adoptSelection _ => 2
  | _, .refetch _ => 3
  | _, .collect => 3
  | _, .reload .. => 1

/-- The greatest number of calls that are still to come. -/
def Progress.calls : Progress → Nat
  | .waiting _ stage => stage.calls
  | .finished _ => 0

theorem Planner.calls_settle_lt (p : Planner) (result : Success) :
    (p.settle result).2.calls < 2 := by
  unfold settle takeStale
  cases p.stale <;> simp [Progress.calls, Stage.calls]

theorem Planner.calls_settleOutcome_lt (completed : Except PlannerError Outcome × Planner)
    (summary : Option BuildSummary) : (settleOutcome completed summary).2.calls < 2 := by
  unfold settleOutcome
  split
  · simp [Progress.calls]
  · exact calls_settle_lt _ _

/-- Every answer lowers the number of calls that are still to come. -/
theorem Stage.calls_resume_lt (p : Planner) {k : Store.Kind} (stage : Stage k)
    (reply : Store.Reply k) : (p.resume stage reply).2.calls < stage.calls := by
  cases stage with
  | adopt ticket summary => exact Planner.calls_settleOutcome_lt _ _
  | adoptSelection pending => exact Planner.calls_settleOutcome_lt _ _
  | refetch ticket =>
    cases reply with
    | ok u => simp [Planner.resume, Progress.calls, Stage.calls]
    | error e =>
      exact Nat.lt_trans (Planner.calls_settleOutcome_lt (p.complete ticket (.error e)) none)
        (by simp [Stage.calls])
  | collect =>
    cases reply with
    | ok summary =>
      simp only [Planner.resume, Planner.beginCall]
      split <;> simp [Planner.refuse, Progress.calls, Stage.calls]
    | error e => simp [Planner.resume, Planner.refuse, Progress.calls, Stage.calls]
  | reload result ticket =>
    simp only [Planner.resume]
    split <;> simp [Progress.calls, Stage.calls]

/-- A way to answer calls that keeps a state of its own. -/
abbrev Server (σ : Type) := {k : Store.Kind} → Store.Call k → σ → Store.Reply k × σ

/-- Runs an operation from where it stands to its end, with nothing in between. -/
def Progress.run {σ : Type} (serve : Server σ) (p : Planner) (store : σ) (progress : Progress) :
    Except PlannerError Success × Planner × σ :=
  match progress with
  | .finished result => (result, p, store)
  | .waiting call stage =>
    let (reply, store) := serve call store
    let next := p.resume stage reply
    next.2.run serve next.1 store
termination_by progress.calls
decreasing_by exact Stage.calls_resume_lt p stage reply

/-- Runs an operation to its end, with nothing in between. -/
def Planner.perform {σ : Type} (serve : Server σ) (p : Planner) (store : σ) (op : Operation) :
    Except PlannerError Success × Planner × σ :=
  let started := p.start op
  started.2.run serve started.1 store

/-- The store in memory answers calls. -/
def Store.Memory.server : Server Store.Memory := fun call m => m.serve call

end Timetable
