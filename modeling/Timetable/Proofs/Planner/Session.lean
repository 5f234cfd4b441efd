import Mathlib.Logic.Relation
import Timetable.Proofs.Planner.Operations

/-!
# Sessions of the planner

A session is a planner together with everything that has happened to it. `Session.Step` is one call
of one of the planner's seven operations: requests are handed out and answered in any order, an
answer is only taken for a request that was handed out, and a call that is refused changes nothing.
`Session.Reach` is the reflexive-transitive closure from the planner that holds nothing. Which
requests were handed out, answered and applied is read off the events, so a fact about a whole run
is a fact about a session that is reached.

`Session.Change` says what a step can do, field by field; `Session.Step.change` is the one place
where the operations are opened.
-/

namespace Timetable.Planner

/-- What the planner has handed out: a ticket, or a selection change with its ticket. -/
inductive Request where
  | plain (ticket : Ticket)
  | selection (pending : PendingSelection)
  deriving DecidableEq

/-- The ticket of a request. -/
def Request.ticket : Request → Ticket
  | .plain ticket => ticket
  | .selection pending => pending.ticket

/-- Takes the answer to a request, in the way of its kind. -/
def answer (p : Planner) :
    Request → Except Store.Error PlanRecord → Except PlannerError Outcome × Planner
  | .plain ticket, reply => p.complete ticket reply
  | .selection pending, reply => p.completeSelection pending reply

/-- The type groups in flight after the answer to a request. -/
def inFlightAfter (p : Planner) : Request → List ((Int × String) × Nat)
  | .plain _ => p.inFlight
  | .selection pending =>
    if valueOf? (pending.courseId, pending.typeKey) p.inFlight = some pending.ticket.seq then
      dropValue (pending.courseId, pending.typeKey) p.inFlight
    else p.inFlight

theorem release_eq (p : Planner) (pending : PendingSelection) :
    p.release pending = { p with inFlight := p.inFlightAfter (.selection pending) } := by
  by_cases held :
      valueOf? (pending.courseId, pending.typeKey) p.inFlight = some pending.ticket.seq
  · simp only [release, inFlightAfter, held, if_true]
  · simp only [release, inFlightAfter, held, if_false]

/-- Answering a request frees what is to be freed and completes its ticket. -/
theorem answer_eq (p : Planner) (request : Request) (reply : Except Store.Error PlanRecord) :
    p.answer request reply =
      { p with inFlight := p.inFlightAfter request }.complete request.ticket reply := by
  cases request with
  | plain ticket => rfl
  | selection pending => rw [answer, completeSelection, release_eq]; rfl

/-- What happens to a planner. -/
inductive Event where
  | requested (request : Request)
  | answered (request : Request) (reply : Except Store.Error PlanRecord)
      (result : Except PlannerError Outcome)
  | activated (courseId : Option Int)
  | staleTaken

namespace Event

/-- The request that is handed out. -/
def request? : Event → Option Request
  | requested request => some request
  | _ => none

/-- The request that is answered. -/
def completed? : Event → Option Request
  | answered request _ _ => some request
  | _ => none

/-- The ticket whose answer becomes the held plan, with the answer. -/
def applied? : Event → Option (Ticket × PlanRecord)
  | answered request (.ok r) (.ok .applied) => some (request.ticket, r)
  | _ => none

end Event

/-- What has happened to a planner, the newest event first. -/
abbrev History : Type := List Event

namespace History

/-- The requests that were handed out, the newest first. -/
def requests (h : History) : List Request := h.filterMap Event.request?

/-- The tickets that were handed out, the newest first. -/
def tickets (h : History) : List Ticket := h.requests.map Request.ticket

/-- The requests that were answered, once for each answer. -/
def completions (h : History) : List Request := h.filterMap Event.completed?

/-- The tickets that were completed, once for each answer. -/
def completed (h : History) : List Ticket := h.completions.map Request.ticket

/-- The answers that became the held plan, the newest first. -/
def applied (h : History) : List (Ticket × PlanRecord) := h.filterMap Event.applied?

/-- A request that may be answered: a selection change that was handed out, or any ticket, also that
of a selection change. -/
def Handed (h : History) : Request → Prop
  | .plain ticket => ticket ∈ h.tickets
  | .selection pending => .selection pending ∈ h.requests

theorem Handed.ticket_mem {h : History} {request : Request} (handed : h.Handed request) :
    request.ticket ∈ h.tickets := by
  cases request with
  | plain ticket => exact handed
  | selection pending => exact List.mem_map_of_mem handed

/-- What was handed out stays so. -/
theorem Handed.cons {past : History} {request : Request} (e : Event)
    (handed : past.Handed request) : Handed (e :: past) request := by
  have grows : ∀ r ∈ past.requests, r ∈ requests (e :: past) := by
    intro r member
    obtain ⟨e', before, hands⟩ := List.mem_filterMap.mp member
    exact List.mem_filterMap.mpr ⟨e', List.mem_cons_of_mem e before, hands⟩
  cases request with
  | plain ticket =>
    obtain ⟨r, member, same⟩ := List.mem_map.mp handed
    exact List.mem_map.mpr ⟨r, grows r member, same⟩
  | selection pending => exact grows _ handed

end History

/-- A planner and what has happened to it. -/
structure Session where
  planner : Planner
  history : History

namespace Session

/-- The planner before anything has happened. -/
def new : Session := ⟨.new, []⟩

/-! ## The operations -/

def beginLoad (s : Session) (term : Option String) : Session :=
  ⟨(s.planner.beginLoad term).2, .requested (.plain (s.planner.beginLoad term).1) :: s.history⟩

def begin (s : Session) (key : RequestKey) : Session :=
  match s.planner.begin key with
  | .ok (ticket, p) => ⟨p, .requested (.plain ticket) :: s.history⟩
  | .error _ => s

def beginSelection (s : Session) (courseId : Int) (typeKey : String) (choice : Option Int) :
    Session :=
  match s.planner.beginSelection courseId typeKey choice with
  | .ok (pending, p) => ⟨p, .requested (.selection pending) :: s.history⟩
  | .error _ => s

def answer (s : Session) (request : Request) (reply : Except Store.Error PlanRecord) : Session :=
  ⟨(s.planner.answer request reply).2,
    .answered request reply (s.planner.answer request reply).1 :: s.history⟩

def setActive (s : Session) (courseId : Option Int) : Session :=
  match s.planner.setActive courseId with
  | .ok p => ⟨p, .activated courseId :: s.history⟩
  | .error _ => s

def takeStale (s : Session) : Session := ⟨s.planner.takeStale.2, .staleTaken :: s.history⟩

/-- One call of an operation. The planner does not ask whether a request was answered before. -/
inductive Step (s : Session) : Session → Prop
  | beginLoad (term : Option String) : Step s (s.beginLoad term)
  | begin (key : RequestKey) : Step s (s.begin key)
  | beginSelection (courseId : Int) (typeKey : String) (choice : Option Int) :
    Step s (s.beginSelection courseId typeKey choice)
  | complete (ticket : Ticket) (reply : Except Store.Error PlanRecord) :
    s.history.Handed (.plain ticket) → Step s (s.answer (.plain ticket) reply)
  | completeSelection (pending : PendingSelection) (reply : Except Store.Error PlanRecord) :
    s.history.Handed (.selection pending) → Step s (s.answer (.selection pending) reply)
  | setActive (courseId : Option Int) : Step s (s.setActive courseId)
  | takeStale : Step s s.takeStale

/-- What a new planner can come to. -/
abbrev Reach : Session → Prop := Relation.ReflTransGen Step new

/-! ## What a step can do -/

/-- The effect of a step on the fields of the planner and on the history. -/
inductive Change (p : Planner) (past : History) : Session → Prop
  | refused : Change p past ⟨p, past⟩
  | requested (key : RequestKey) (term : Option String) (phase : Phase) :
    (key = .plan ∧ phase = .loading) ∨
      (p.appliedSeq ≠ 0 ∧ (∀ id, key.courseId? = some id → p.plan.hasCourse id = true) ∧
        phase = p.phase) →
    Change p past
      ⟨{ p with
          phase := phase
          lastSeq := p.lastSeq + 1
          latest := setValue key (p.lastSeq + 1) p.latest },
        .requested (.plain ⟨key, p.lastSeq + 1, term⟩) :: past⟩
  | selected (courseId : Int) (typeKey : String) (choice : Option Int) (next : IdSet) :
    p.appliedSeq ≠ 0 → p.isMutating courseId typeKey = false →
    p.plan.trySelect courseId typeKey choice = .ok next →
    Change p past
      ⟨{ p with
          lastSeq := p.lastSeq + 1
          latest := setValue (.selection courseId typeKey) (p.lastSeq + 1) p.latest
          inFlight := setValue (courseId, typeKey) (p.lastSeq + 1) p.inFlight },
        .requested (.selection
          ⟨⟨.selection courseId typeKey, p.lastSeq + 1, p.term⟩, courseId, typeKey,
            p.plan.courseSelection courseId next⟩) :: past⟩
  | failed (request : Request) (e : Store.Error) :
    past.Handed request →
    Change p past
      ⟨{ p with
          phase := p.phaseAfter request.ticket p.appliedSeq
          inFlight := p.inFlightAfter request },
        .answered request (.error e) (.error (.store e)) :: past⟩
  | applied (request : Request) (r : PlanRecord) :
    past.Handed request → p.isLatest request.ticket = true →
    p.appliedSeq < request.ticket.seq →
    Change p past
      ⟨{ p.apply r request.ticket with
          phase := p.phaseAfter request.ticket request.ticket.seq
          inFlight := p.inFlightAfter request },
        .answered request (.ok r) (.ok .applied) :: past⟩
  | superseded (request : Request) (r : PlanRecord) :
    past.Handed request →
    ¬(p.isLatest request.ticket = true ∧ p.appliedSeq < request.ticket.seq) →
    Change p past
      ⟨{ p with
          phase := p.phaseAfter request.ticket p.appliedSeq
          inFlight := p.inFlightAfter request
          stale := true },
        .answered request (.ok r) (.ok .superseded) :: past⟩
  | activated (courseId : Option Int) :
    (∀ id, courseId = some id → p.plan.hasCourse id = true) →
    Change p past ⟨{ p with active := courseId }, .activated courseId :: past⟩
  | staleTaken : Change p past ⟨{ p with stale := false }, .staleTaken :: past⟩

theorem change_answer {s : Session} {request : Request} (handed : s.history.Handed request)
    (reply : Except Store.Error PlanRecord) :
    Change s.planner s.history (s.answer request reply) := by
  obtain ⟨p, past⟩ := s
  unfold answer
  rw [answer_eq]
  cases reply with
  | error e =>
    rw [complete_error]
    exact .failed request e handed
  | ok r =>
    by_cases adopted : p.isLatest request.ticket = true ∧ p.appliedSeq < request.ticket.seq
    · rw [complete_applied { p with inFlight := p.inFlightAfter request } r adopted.1
        adopted.2]
      exact .applied request r handed adopted.1 adopted.2
    · rw [complete_superseded { p with inFlight := p.inFlightAfter request } r adopted]
      exact .superseded request r handed adopted

theorem Step.change {s s' : Session} (step : Step s s') : Change s.planner s.history s' := by
  cases step with
  | beginLoad term => exact .requested .plan (term.or s.planner.term) .loading (.inl ⟨rfl, rfl⟩)
  | begin key =>
    unfold Session.begin
    cases begun : s.planner.begin key with
    | error e => exact .refused
    | ok handed =>
      obtain ⟨ticket, p⟩ := handed
      obtain ⟨loaded, known, issued⟩ := begin_eq_ok_iff.mp begun
      cases issued
      exact .requested key s.planner.term s.planner.phase (.inr ⟨loaded, known, rfl⟩)
  | beginSelection courseId typeKey choice =>
    unfold Session.beginSelection
    cases begun : s.planner.beginSelection courseId typeKey choice with
    | error e => exact .refused
    | ok handed =>
      obtain ⟨pending, p⟩ := handed
      obtain ⟨loaded, free, next, tried, rfl, rfl⟩ := beginSelection_eq_ok_iff.mp begun
      exact .selected courseId typeKey choice next loaded free tried
  | complete ticket reply handed => exact change_answer handed reply
  | completeSelection pending reply handed => exact change_answer handed reply
  | setActive courseId =>
    unfold Session.setActive
    cases set : s.planner.setActive courseId with
    | error e => exact .refused
    | ok p =>
      obtain ⟨known, rfl⟩ := setActive_eq_ok_iff.mp set
      exact .activated courseId known
  | takeStale => exact .staleTaken

/-! ## A run -/

/-- A plan with one course and one section. -/
def sample (selected : Bool) : PlanRecord where
  term := some "202620"
  courses :=
    [{ id := 1, code := "CS 1713", term := "202620"
       sections := [{ id := 11, courseId := 1, code := "L1", selected := selected }] }]

/-- A plan is loaded, then a refresh and a selection change are on their way together and are
answered in the opposite order. -/
def overlap : Session :=
  let loaded := (new.beginLoad none).answer (.plain ⟨.plan, 1, none⟩) (.ok (sample false))
  let asked := (loaded.begin .plan).beginSelection 1 "L" (some 11)
  let selected := asked.answer
    (.selection ⟨⟨.selection 1 "L", 3, some "202620"⟩, 1, "L", [11]⟩) (.ok (sample true))
  selected.answer (.plain ⟨.plan, 2, some "202620"⟩) (.ok (sample false))

theorem reach_overlap : Reach overlap := by
  refine .tail (.tail (.tail (.tail (.tail (.tail .refl (.beginLoad _)) (.complete _ _ ?_))
    (.begin _)) (.beginSelection _ _ _)) (.completeSelection _ _ ?_)) (.complete _ _ ?_)
  · exact List.mem_cons_self
  · show _ ∈ _
    decide
  · show _ ∈ _
    decide

end Session

end Timetable.Planner
