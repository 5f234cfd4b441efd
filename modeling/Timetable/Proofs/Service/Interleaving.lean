import Mathlib.Logic.Relation
import Timetable.Proofs.Planner.Session
import Timetable.Service

/-!
# Operations of the service side by side

Several operations run over one planner and one store. `Position` says where an operation stands
between two of its steps, and `Position.advance` is its next step at the planner: a completion,
the taking of the mark of a stale plan and the start of the load that follows are steps of their
own, as the planner is free in between. The store serves one call in one step, and the answer is
taken in a later one, so answers may reach the planner in another order than the store gave them.

`Step` is one step of any operation, `Run` its reflexive-transitive closure. A state keeps a trace:
in which order the store served the calls, and in which order the answers landed. `Run.resume`: what
an operation does in one go when nothing comes in between is such a run.
-/

namespace Timetable

/-- The ticket that is completed in the end. A build has none while the store builds. -/
def Stage.ticket? : {k : Store.Kind} → Stage k → Option Ticket
  | _, .adopt ticket _ => some ticket
  | _, .adoptSelection pending => some pending.ticket
  | _, .refetch ticket => some ticket
  | _, .collect => none
  | _, .reload _ ticket => some ticket

/-- The request that is completed with a plan. -/
def Stage.request : Stage .plan → Planner.Request
  | .adopt ticket _ => .plain ticket
  | .adoptSelection pending => .selection pending
  | .reload _ ticket => .plain ticket

namespace Service

/-- Where an operation stands between two of its steps. -/
inductive Position where
  /-- Its call is on the way to the store. -/
  | calling {k : Store.Kind} (call : Store.Call k) (stage : Stage k)
  /-- The answer is on the way to the planner. -/
  | answered {k : Store.Kind} (stage : Stage k) (reply : Store.Reply k)
  /-- It has completed its ticket and has not asked for the mark yet. -/
  | settling (result : Success)
  /-- It has taken the mark and has not begun to load yet. -/
  | reloading (result : Success)
  | finished (result : Except PlannerError Success)

/-- What leaves a trace in a run. -/
inductive Moment (σ : Type) where
  /-- The store served a call, for a ticket when there is one, and was in this state after it. -/
  | served (seq : Option Nat) (kind : Store.Kind) (store : σ)
  /-- The answer to a ticket reached the planner. -/
  | landed (seq : Nat) (result : Except PlannerError Outcome)

/-- Whether the store served a call. -/
def Moment.IsServed {σ : Type} : Moment σ → Prop
  | .served .. => True
  | .landed .. => False

namespace Position

/-- Where an operation stands after a step that is not cut up. -/
def ofProgress : Progress → Position
  | .waiting call stage => .calling call stage
  | .finished result => .finished result

/-- Whether an operation has ended. -/
def hasEnded : Position → Bool
  | finished _ => true
  | _ => false

/-- The number of the ticket that an operation still has to complete. -/
def seq? : Position → Option Nat
  | calling _ stage => stage.ticket?.map Ticket.seq
  | answered stage _ => stage.ticket?.map Ticket.seq
  | _ => none

/-- Where an operation goes from the completion of its ticket. -/
def completed : Stage .plan → Except PlannerError Outcome → Position
  | _, .error e => finished (.error e)
  | .adopt _ (some summary), .ok _ => settling (.built summary)
  | .adopt _ none, .ok outcome => settling (.outcome outcome)
  | .adoptSelection _, .ok outcome => settling (.outcome outcome)
  | .reload result _, .ok _ => finished (.ok result)

theorem completed_adoptSelection (pending : PendingSelection)
    (result : Except PlannerError Outcome) :
    completed (.adoptSelection pending) result = completed (.adopt pending.ticket none) result := by
  cases result <;> rfl

/-- Completes a request at the planner. -/
def land {σ : Type} (p : Planner) (stage : Stage .plan) (reply : Store.Reply .plan) :
    Planner × Position × List (Moment σ) :=
  ((p.answer stage.request reply).2, completed stage (p.answer stage.request reply).1,
    [.landed stage.request.ticket.seq (p.answer stage.request reply).1])

/-- The step that takes an answer, with what it leaves in the trace. -/
def takeAnswer {σ : Type} (p : Planner) :
    {k : Store.Kind} → Stage k → Store.Reply k → Planner × Position × List (Moment σ)
  | _, .adopt ticket summary, reply => land p (.adopt ticket summary) reply
  | _, .adoptSelection pending, reply => land p (.adoptSelection pending) reply
  | _, .reload result ticket, reply => land p (.reload result ticket) reply
  | _, .refetch ticket, .error e => land p (.adopt ticket none) (.error e)
  | _, .refetch ticket, .ok () =>
    (p, calling (.fetchPlan ticket.term) (.adopt ticket none), [])
  | _, .collect, .error e => (p, finished (.error (.store e)), [])
  | _, .collect, .ok summary =>
    let (p, progress) :=
      p.beginCall .plan (fun t => .fetchPlan t.term) (fun t => .adopt t (some summary))
    (p, ofProgress progress, [])

theorem takeAnswer_plan {σ : Type} (p : Planner) (stage : Stage .plan)
    (reply : Store.Reply .plan) :
    (takeAnswer p stage reply : Planner × Position × List (Moment σ)) = land p stage reply := by
  cases stage <;> rfl

/-- The next step of an operation at the planner. An operation that waits for the store or has ended
does nothing. -/
def advance (σ : Type) (p : Planner) : Position → Planner × Position × List (Moment σ)
  | answered stage reply => takeAnswer p stage reply
  | settling result =>
    (p.takeStale.2, if p.takeStale.1 then reloading result else finished (.ok result), [])
  | reloading result =>
    let (ticket, p) := p.beginLoad none
    (p, calling (.fetchPlan ticket.term) (.reload result ticket), [])
  | calling call stage => (p, calling call stage, [])
  | finished result => (p, finished result, [])

theorem advance_settling (σ : Type) (p : Planner) (result : Success) :
    advance σ p (settling result) =
      (p.takeStale.2, if p.stale then reloading result else finished (.ok result), []) := rfl

end Position

/-- A planner, its store, and the operations that run over them, the newest first. -/
structure State (σ : Type) where
  planner : Planner
  store : σ
  running : List Position
  /-- What has happened, the newest first. -/
  trace : List (Moment σ)

/-- Every operation has ended. -/
def State.Finished {σ : Type} (s : State σ) : Prop := ∀ x ∈ s.running, x.hasEnded = true

instance {σ : Type} (s : State σ) : Decidable s.Finished :=
  inferInstanceAs (Decidable (∀ x ∈ s.running, x.hasEnded = true))

/-- How a store may answer a call: its state before, the answer, and its state after. -/
abbrev Serving (σ : Type) := (k : Store.Kind) → Store.Call k → σ → Store.Reply k → σ → Prop

section Steps

variable {σ : Type} (Serves : Serving σ)

/-- One step: an operation starts, the store serves a call, or an operation takes its next step at
the planner. -/
inductive Step (s : State σ) : State σ → Prop
  | start (op : Operation) :
    Step s
      { s with
        planner := (s.planner.start op).1
        running := .ofProgress (s.planner.start op).2 :: s.running }
  | serve {k : Store.Kind} (call : Store.Call k) (stage : Stage k) (before after : List Position)
    (reply : Store.Reply k) (store : σ) :
    s.running = before ++ .calling call stage :: after → Serves k call s.store reply store →
    Step s
      { s with
        store := store
        running := before ++ .answered stage reply :: after
        trace := .served (stage.ticket?.map Ticket.seq) k store :: s.trace }
  | advance (before : List Position) (x : Position) (after : List Position) :
    s.running = before ++ x :: after →
    Step s
      { s with
        planner := (x.advance σ s.planner).1
        running := before ++ (x.advance σ s.planner).2.1 :: after
        trace := (x.advance σ s.planner).2.2 ++ s.trace }

/-- Any number of steps, of any operations in any order. -/
abbrev Run : State σ → State σ → Prop := Relation.ReflTransGen (Step Serves)

/-! ## Steps in one go -/

variable {Serves} {s : State σ} {before after : List Position}

/-- To settle is to take the mark and, when it was set, to begin a load. -/
theorem Run.settle {result : Success} (here : s.running = before ++ .settling result :: after) :
    Run Serves s
      { s with
        planner := (s.planner.settle result).1
        running := before ++ .ofProgress (s.planner.settle result).2 :: after } := by
  have take : Step Serves s _ := .advance before (.settling result) after here
  rw [Position.advance_settling] at take
  cases marked : s.planner.stale with
  | false =>
    have settled : s.planner.settle result = (s.planner.takeStale.2, .finished (.ok result)) := by
      unfold Planner.settle Planner.takeStale
      rw [marked]
    rw [settled]
    rw [marked] at take
    exact .single take
  | true =>
    have settled : s.planner.settle result =
        ((s.planner.takeStale.2.beginLoad none).2,
          .waiting (.fetchPlan (s.planner.takeStale.2.beginLoad none).1.term)
            (.reload result (s.planner.takeStale.2.beginLoad none).1)) := by
      unfold Planner.settle Planner.takeStale
      rw [marked]
    rw [settled]
    rw [marked] at take
    exact .tail (.single take) (.advance before (.reloading result) after rfl)

/-- An operation that has completed its ticket settles, or ends with the error. -/
theorem Run.settleOutcome (ticket : Ticket) {summary : Option BuildSummary}
    {result : Except PlannerError Outcome}
    (here : s.running = before ++ .completed (.adopt ticket summary) result :: after) :
    Run Serves s
      { s with
        planner := (Planner.settleOutcome (result, s.planner) summary).1
        running :=
          before ++
            .ofProgress (Planner.settleOutcome (result, s.planner) summary).2 :: after } := by
  cases result with
  | error e =>
    have same : s =
        { s with running := before ++ .completed (.adopt ticket summary) (.error e) :: after } := by
      rw [← here]
    exact same ▸ .refl
  | ok outcome => cases summary <;> exact Run.settle here

/-- What an operation does with an answer in one go is a run with nothing in between. -/
theorem Run.resume {k : Store.Kind} {stage : Stage k} {reply : Store.Reply k}
    (here : s.running = before ++ .answered stage reply :: after) :
    ∃ trace, Run Serves s
      { s with
        planner := (s.planner.resume stage reply).1
        running := before ++ .ofProgress (s.planner.resume stage reply).2 :: after
        trace := trace } := by
  have first : Step Serves s _ := .advance before (.answered stage reply) after here
  cases stage with
  | adopt ticket summary => exact ⟨_, .trans (.single first) (Run.settleOutcome ticket rfl)⟩
  | adoptSelection pending =>
    have alike := Position.completed_adoptSelection pending
      (s.planner.completeSelection pending reply).1
    exact ⟨_, .trans (.single first)
      (Run.settleOutcome pending.ticket (congrArg (before ++ · :: after) alike))⟩
  | refetch ticket =>
    cases reply with
    | error e => exact ⟨_, .trans (.single first) (Run.settleOutcome ticket rfl)⟩
    | ok done => exact ⟨_, .single first⟩
  | collect => cases reply <;> exact ⟨_, .single first⟩
  | reload result ticket =>
    have alike : ((s.planner.resume (.reload result ticket) reply).1,
          Position.ofProgress (s.planner.resume (.reload result ticket) reply).2) =
        ((s.planner.complete ticket reply).2,
          Position.completed (.reload result ticket) (s.planner.complete ticket reply).1) := by
      simp only [Planner.resume]
      obtain ⟨fate, p⟩ := s.planner.complete ticket reply
      cases fate <;> rfl
    obtain ⟨planner, position⟩ := Prod.mk.inj alike
    rw [planner, position]
    exact ⟨_, .single first⟩

end Steps

/-! ## What a step does to the planner -/

/-- A ticket is handed out, and what is held stays. -/
structure Issues (p q : Planner) : Prop where
  plan : q.plan = p.plan
  appliedSeq : q.appliedSeq = p.appliedSeq
  stale : q.stale = p.stale
  lastSeq : q.lastSeq = p.lastSeq + 1

/-- What a successful answer to a ticket does, by its fate. -/
inductive Lands (p : Planner) (ticket : Ticket) (r : PlanRecord) (q : Planner) :
    Except PlannerError Outcome → Prop
  | applied :
    p.appliedSeq < ticket.seq → q.plan = .ofRecord r → q.appliedSeq = ticket.seq →
    q.lastSeq = p.lastSeq → q.stale = p.stale → Lands p ticket r q (.ok .applied)
  | superseded :
    q.plan = p.plan → q.appliedSeq = p.appliedSeq → q.lastSeq = p.lastSeq →
    q.stale = true → Lands p ticket r q (.ok .superseded)

theorem Lands.ok {p q : Planner} {ticket : Ticket} {r : PlanRecord}
    {result : Except PlannerError Outcome} (lands : Lands p ticket r q result) :
    ∃ outcome, result = .ok outcome := by
  cases lands <;> exact ⟨_, rfl⟩

theorem Lands.lastSeq {p q : Planner} {ticket : Ticket} {r : PlanRecord}
    {result : Except PlannerError Outcome} (lands : Lands p ticket r q result) :
    q.lastSeq = p.lastSeq := by
  cases lands <;> assumption

theorem answer_lands (p : Planner) (request : Planner.Request) (r : PlanRecord) :
    Lands p request.ticket r (p.answer request (.ok r)).2 (p.answer request (.ok r)).1 := by
  rw [Planner.answer_eq]
  by_cases adopted : p.isLatest request.ticket = true ∧ p.appliedSeq < request.ticket.seq
  · rw [Planner.complete_applied { p with inFlight := p.inFlightAfter request } r adopted.1
      adopted.2]
    exact .applied adopted.2 rfl rfl rfl rfl
  · rw [Planner.complete_superseded { p with inFlight := p.inFlightAfter request } r adopted]
    exact .superseded rfl rfl rfl rfl

/-- What the first step of an operation comes to: a refusal, a call with the next ticket, or the
call for a build, which has no ticket yet. -/
inductive Starts (p : Planner) : Planner × Progress → Prop
  | refused (e : PlannerError) : Starts p (p, .finished (.error e))
  | building : Starts p (p, .waiting .autoBuild .collect)
  | asking {q : Planner} {k : Store.Kind} {ticket : Ticket} (call : Store.Call k)
    (stage : Stage k) :
    Issues p q → ticket.seq = p.lastSeq + 1 → stage.ticket? = some ticket →
    Starts p (q, .waiting call stage)

/-- A request of a loaded planner is refused or asks the store. -/
theorem starts_beginCall (p : Planner) (key : RequestKey) {k : Store.Kind}
    (call : Ticket → Store.Call k) (stage : Ticket → Stage k)
    (ticketed : ∀ ticket, (stage ticket).ticket? = some ticket) :
    Starts p (p.beginCall key call stage) := by
  unfold Planner.beginCall
  cases begun : p.begin key with
  | error e => exact .refused e
  | ok handed =>
    obtain ⟨ticket, q⟩ := handed
    obtain ⟨-, -, issued⟩ := Planner.begin_eq_ok_iff.mp begun
    cases issued
    exact .asking _ _ ⟨rfl, rfl, rfl, rfl⟩ rfl (ticketed _)

theorem starts_start (p : Planner) (op : Operation) : Starts p (p.start op) := by
  cases op with
  | load term => exact .asking _ _ ⟨rfl, rfl, rfl, rfl⟩ rfl rfl
  | refresh => exact starts_beginCall _ _ _ _ fun _ => rfl
  | select courseId typeKey choice =>
    simp only [Planner.start]
    cases begun : p.beginSelection courseId typeKey choice with
    | error e => exact .refused e
    | ok handed =>
      obtain ⟨pending, q⟩ := handed
      obtain ⟨-, -, next, -, rfl, rfl⟩ := Planner.beginSelection_eq_ok_iff.mp begun
      exact .asking _ _ ⟨rfl, rfl, rfl, rfl⟩ rfl rfl
  | addCourse code term =>
    simp only [Planner.start]
    cases p.termFor term with
    | error e => exact .refused e
    | ok term => exact starts_beginCall _ _ _ _ fun _ => rfl
  | removeCourse courseId => exact starts_beginCall _ _ _ _ fun _ => rfl
  | refreshCourse courseId force => exact starts_beginCall _ _ _ _ fun _ => rfl
  | autoBuild =>
    simp only [Planner.start]
    cases p.ensureLoaded with
    | error e => exact .refused e
    | ok _ => exact .building
  | reset term => exact starts_beginCall _ _ _ _ fun _ => rfl

/-- Once a plan has been loaded, a request for the whole plan is not refused. -/
theorem beginCall_plan {p : Planner} (loaded : p.appliedSeq ≠ 0) {k : Store.Kind}
    (call : Ticket → Store.Call k) (stage : Ticket → Stage k) :
    ∃ ticket q, p.beginCall .plan call stage = (q, .waiting (call ticket) (stage ticket)) ∧
      Issues p q ∧ ticket.seq = p.lastSeq + 1 := by
  refine ⟨(p.issue .plan p.term).1, (p.issue .plan p.term).2, ?_, ⟨rfl, rfl, rfl, rfl⟩, rfl⟩
  unfold Planner.beginCall
  rw [Planner.begin_plan loaded]

end Service

end Timetable
