import Timetable.Proofs.Planner.Gate
import Timetable.Proofs.Planner.Lifecycle

/-!
# Requests that come to nothing

A request is refused, or its call to the store fails, or its answer is dropped; the planner is then
where it was when it was last in order.

An operation gives back a planner only when it succeeds, so on its own it cannot say what a refusal
leaves behind. `Script` is the same operation as a program that writes to the planner step by step
and keeps what it has written when it fails: that every check comes before the first write is what
`Script.run_begin`, `Script.run_beginSelection` and `Script.run_setActive` say. After a failure or a
dropped answer the planner is `Session.spent`: a load that waited for the answer ends, a selection
change frees its group, and nothing else happens. Main statement: `last_good_state`.
-/

namespace Timetable.Planner

/-! ## The checks of an operation -/

variable {p : Planner} {courseId : Int} {typeKey : String} {choice : Option Int}

theorem ensureLoaded_eq (p : Planner) :
    p.ensureLoaded = if p.appliedSeq = 0 then .error .notReady else .ok () := by
  by_cases loaded : p.appliedSeq = 0 <;> simp [ensureLoaded, isLoaded, loaded]

theorem begin_of_loaded (loaded : p.appliedSeq ≠ 0) (key : RequestKey) :
    p.begin key = match key.courseId? with
      | some id =>
        if p.plan.hasCourse id = true then .ok (p.issue key p.term) else .error (.unknownCourse id)
      | none => .ok (p.issue key p.term) := by
  rw [begin, ensureLoaded_eq, if_neg loaded]
  cases key.courseId? with
  | none => rfl
  | some id => by_cases known : p.plan.hasCourse id = true <;> simp only [known] <;> rfl

theorem beginSelection_of_free (loaded : p.appliedSeq ≠ 0)
    (free : p.isMutating courseId typeKey = false) :
    p.beginSelection courseId typeKey choice =
      match p.plan.trySelect courseId typeKey choice with
      | .error e => .error (.selection e)
      | .ok next =>
        .ok (⟨(p.issue (.selection courseId typeKey) p.term).1, courseId, typeKey,
            p.plan.courseSelection courseId next⟩,
          { (p.issue (.selection courseId typeKey) p.term).2 with
            inFlight := setValue (courseId, typeKey) (p.lastSeq + 1) p.inFlight }) := by
  rw [beginSelection, ensureLoaded_eq, if_neg loaded, free]
  cases p.plan.trySelect courseId typeKey choice <;> rfl

/-! ## Operations as programs -/

/-- A program on the planner. What it has written before it fails stays written. -/
abbrev Script (α : Type) : Type := EStateM PlannerError Planner α

namespace Script

def ensureLoaded : Script Unit := do
  if (← get).appliedSeq = 0 then throw .notReady

def issue (key : RequestKey) (term : Option String) : Script Ticket := do
  modify fun p => { p with lastSeq := p.lastSeq + 1 }
  modify fun p => { p with latest := setValue key p.lastSeq p.latest }
  return ⟨key, (← get).lastSeq, term⟩

def begin (key : RequestKey) : Script Ticket := do
  ensureLoaded
  if let some id := key.courseId? then
    if (← get).plan.hasCourse id = false then throw (.unknownCourse id)
  issue key (← get).term

def beginSelection (courseId : Int) (typeKey : String) (choice : Option Int) :
    Script PendingSelection := do
  ensureLoaded
  if (← get).isMutating courseId typeKey then throw (.busy courseId typeKey)
  match (← get).plan.trySelect courseId typeKey choice with
  | .error e => throw (.selection e)
  | .ok next =>
    let sectionIds := (← get).plan.courseSelection courseId next
    let ticket ← issue (.selection courseId typeKey) (← get).term
    modify fun p => { p with inFlight := setValue (courseId, typeKey) ticket.seq p.inFlight }
    return ⟨ticket, courseId, typeKey, sectionIds⟩

def setActive (courseId : Option Int) : Script Unit := do
  if let some id := courseId then
    if (← get).plan.hasCourse id = false then throw (.unknownCourse id)
  modify fun p => { p with active := courseId }

/-- The program that writes the planner which a step gives back, and nothing if it is refused. -/
def ofStep {α : Type} (step : Planner → Except PlannerError (α × Planner)) : Script α := fun p =>
  match step p with
  | .ok (a, q) => .ok a q
  | .error e => .error e p

theorem run_ofStep {α : Type} (step : Planner → Except PlannerError (α × Planner)) (p : Planner) :
    (ofStep step).run p = match step p with
      | .ok (a, q) => .ok a q
      | .error e => .error e p := rfl

/-- What is refused has written nothing. -/
theorem run_ofStep_eq_error_iff {α : Type} {step : Planner → Except PlannerError (α × Planner)}
    {p q : Planner} {e : PlannerError} :
    (ofStep step).run p = .error e q ↔ step p = .error e ∧ q = p := by
  rw [run_ofStep]
  cases step p with
  | ok made => simp
  | error e' => simp [eq_comm]

theorem run_ensureLoaded (p : Planner) :
    ensureLoaded.run p = if p.appliedSeq = 0 then .error .notReady p else .ok () p := by
  by_cases loaded : p.appliedSeq = 0 <;> simp [ensureLoaded, loaded]

theorem run_issue (p : Planner) (key : RequestKey) (term : Option String) :
    (issue key term).run p = .ok (p.issue key term).1 (p.issue key term).2 := rfl

theorem run_begin (p : Planner) (key : RequestKey) :
    (Script.begin key).run p = (ofStep (·.begin key)).run p := by
  rw [run_ofStep, Script.begin, EStateM.run_bind, run_ensureLoaded]
  by_cases loaded : p.appliedSeq = 0
  · simp [Planner.begin, ensureLoaded_eq, loaded, bind, Except.bind]
  · rw [if_neg loaded, begin_of_loaded loaded]
    cases about : key.courseId? with
    | none => simp [run_issue]
    | some id => by_cases known : p.plan.hasCourse id = true <;> simp [known, run_issue]

theorem run_beginSelection (p : Planner) (courseId : Int) (typeKey : String)
    (choice : Option Int) :
    (Script.beginSelection courseId typeKey choice).run p =
      (ofStep (·.beginSelection courseId typeKey choice)).run p := by
  rw [run_ofStep, Script.beginSelection, EStateM.run_bind, run_ensureLoaded]
  by_cases loaded : p.appliedSeq = 0
  · simp [Planner.beginSelection, ensureLoaded_eq, loaded, bind, Except.bind]
  · rw [if_neg loaded]
    cases busy : p.isMutating courseId typeKey with
    | true =>
      have refused : p.beginSelection courseId typeKey choice = .error (.busy courseId typeKey) :=
        (beginSelection_eq_busy_iff (by simp [isLoaded, loaded])).mpr busy
      simp [busy, refused]
    | false =>
      rw [beginSelection_of_free loaded busy]
      cases tried : p.plan.trySelect courseId typeKey choice with
      | error e => simp [busy, tried]; rfl
      | ok next => simp [busy, tried, run_issue]; rfl

theorem run_setActive (p : Planner) (courseId : Option Int) :
    (Script.setActive courseId).run p =
      (ofStep fun p => (p.setActive courseId).map ((), ·)).run p := by
  cases courseId with
  | none => rfl
  | some id =>
    by_cases known : p.plan.hasCourse id = true <;>
      simp [Script.setActive, run_ofStep, Planner.setActive, known, Except.map]

end Script

/-! ## Failed and dropped answers -/

namespace Session

/-- The phase after the answer to a ticket that brings no plan: the newest request for the whole
plan ends a load. -/
def spentPhase (s : Session) (ticket : Ticket) : Phase :=
  if s.planner.phase = .loading ∧ s.history.newestLoad? = some ticket then
    if s.history.applied = [] then .idle else .ready
  else s.planner.phase

/-- The groups in flight without that of a selection change, which is found by its number. -/
def without (s : Session) : Request → List ((Int × String) × Nat)
  | .plain _ => s.planner.inFlight
  | .selection pending => s.planner.inFlight.filter (·.2 ≠ pending.ticket.seq)

/-- The planner after a request that has brought no plan. -/
def spent (s : Session) (request : Request) : Planner :=
  { s.planner with phase := s.spentPhase request.ticket, inFlight := s.without request }

variable {s : Session} {request : Request}

theorem Reach.newestLoad?_eq_some_iff (reach : Reach s) {ticket : Ticket}
    (member : ticket ∈ s.history.tickets) :
    s.history.newestLoad? = some ticket ↔
      s.planner.isLatest ticket = true ∧ ticket.key = .plan := by
  constructor
  · exact reach.numbered.isLatest_of_newestLoad?
  · rintro ⟨latest, whole⟩
    exact reach.numbered.newestLoad?_of_isLatest member latest whole

/-- The planner counts from zero exactly while nothing has been applied. -/
theorem Reach.appliedSeq_eq_zero_iff (reach : Reach s) :
    s.planner.appliedSeq = 0 ↔ s.history.applied = [] := by
  have read := reach.adopted.appliedSeq
  unfold History.heldSeq at read
  cases shape : s.history.applied with
  | nil => simp [read, shape]
  | cons first rest =>
    have answered := reach.adopted.answered first (shape ▸ List.mem_cons_self)
    have positive := reach.numbered.positive _ (reach.numbered.completed_subset _ answered)
    rw [shape] at read
    simp only [read, reduceCtorEq, iff_false]
    omega

theorem Reach.phaseAfter_eq (reach : Reach s) {ticket : Ticket}
    (member : ticket ∈ s.history.tickets) :
    s.planner.phaseAfter ticket s.planner.appliedSeq = s.spentPhase ticket := by
  simp only [phaseAfter, spentPhase, reach.newestLoad?_eq_some_iff member,
    reach.appliedSeq_eq_zero_iff]

/-- An entry with the number of a selection change is the entry of its group. -/
theorem Reach.key_of_number (reach : Reach s) {pending : PendingSelection}
    (handed : .selection pending ∈ s.history.requests) {group : Int × String}
    (member : (group, pending.ticket.seq) ∈ s.planner.inFlight) :
    (pending.courseId, pending.typeKey) = group := by
  obtain ⟨other, handed', -, of_group, number⟩ := reach.mem_inFlight_iff.mp member
  obtain rfl : other = pending :=
    Request.selection.inj (reach.numbered.eq_of_seq handed' handed number)
  exact of_group

/-- The answer to a selection change takes away the entry with its own number, and no other. -/
theorem Reach.inFlightAfter_eq (reach : Reach s) (handed : s.history.Handed request) :
    s.planner.inFlightAfter request = s.without request := by
  cases request with
  | plain ticket => rfl
  | selection pending =>
    by_cases own : valueOf? (pending.courseId, pending.typeKey) s.planner.inFlight =
        some pending.ticket.seq
    · rw [inFlightAfter, if_pos own, dropValue, without]
      refine List.filter_congr fun entry member => ?_
      obtain ⟨group, n⟩ := entry
      have same : group = (pending.courseId, pending.typeKey) ↔ n = pending.ticket.seq := by
        constructor
        · rintro rfl
          have found := (mem_iff_valueOf? reach.nodup_inFlight).mp member
          exact Option.some.inj (found.symm.trans own)
        · rintro rfl
          exact (reach.key_of_number handed member).symm
      simp [same]
    · rw [inFlightAfter, if_neg own]
      refine (List.filter_eq_self.mpr fun entry member => ?_).symm
      obtain ⟨group, n⟩ := entry
      have other : n ≠ pending.ticket.seq := by
        rintro rfl
        have of_group := reach.key_of_number handed member
        exact own (of_group ▸ (mem_iff_valueOf? reach.nodup_inFlight).mp member)
      simpa using other

/-- A store error is passed on. -/
theorem Reach.answer_error (reach : Reach s) (handed : s.history.Handed request)
    (e : Store.Error) :
    s.planner.answer request (.error e) = (.error (.store e), s.spent request) := by
  rw [answer_eq, complete_error, spent, ← reach.phaseAfter_eq handed.ticket_mem,
    ← reach.inFlightAfter_eq handed]
  rfl

/-- An answer that is dropped leaves the mark of a stale plan. -/
theorem Reach.answer_superseded (reach : Reach s) (handed : s.history.Handed request)
    {reply : Except Store.Error PlanRecord}
    (dropped : (s.planner.answer request reply).1 = .ok .superseded) :
    (s.planner.answer request reply).2 = { s.spent request with stale := true } := by
  cases reply with
  | error e => rw [reach.answer_error handed] at dropped; cases dropped
  | ok r =>
    have old : ¬(s.planner.isLatest request.ticket = true ∧
        s.planner.appliedSeq < request.ticket.seq) := by
      intro adopted
      rw [answer_ok_fst, if_pos adopted] at dropped
      cases dropped
    rw [answer_eq, complete_superseded { s.planner with inFlight := s.planner.inFlightAfter request }
      r old, spent, ← reach.phaseAfter_eq handed.ticket_mem, ← reach.inFlightAfter_eq handed]
    rfl

/-- Only an answer that is applied changes the held term. -/
theorem Change.term_eq {p : Planner} {past : History} {s : Session} (change : Change p past s) :
    s.planner.term = p.term ∨
      ∃ request r, s.history = .answered request (.ok r) (.ok .applied) :: past := by
  cases change with
  | applied request r handed latest newer => exact .inr ⟨request, r, rfl⟩
  | refused | requested | selected | failed | superseded | activated | staleTaken => exact .inl rfl

/-- What holds of requests that come to nothing, in every run. -/
structure Steadfast (s : Session) : Prop where
  begin : ∀ key e q,
    (Script.begin key).run s.planner = .error e q ↔ s.planner.begin key = .error e ∧ q = s.planner
  beginSelection : ∀ courseId typeKey choice e q,
    (Script.beginSelection courseId typeKey choice).run s.planner = .error e q ↔
      s.planner.beginSelection courseId typeKey choice = .error e ∧ q = s.planner
  setActive : ∀ courseId e q,
    (Script.setActive courseId).run s.planner = .error e q ↔
      s.planner.setActive courseId = .error e ∧ q = s.planner
  complete : ∀ ticket ∈ s.history.tickets, ∀ e,
    s.planner.complete ticket (.error e) =
      (.error (.store e), { s.planner with phase := s.spentPhase ticket })
  completeSelection : ∀ pending, .selection pending ∈ s.history.requests → ∀ e,
    s.planner.completeSelection pending (.error e) =
      (.error (.store e), { s.planner with
        phase := s.spentPhase pending.ticket
        inFlight := s.planner.inFlight.filter (·.2 ≠ pending.ticket.seq) })
  superseded : ∀ ticket ∈ s.history.tickets, ∀ reply,
    (s.planner.complete ticket reply).1 = .ok .superseded →
      (s.planner.complete ticket reply).2 =
        { s.planner with phase := s.spentPhase ticket, stale := true }
  supersededSelection : ∀ pending, .selection pending ∈ s.history.requests → ∀ reply,
    (s.planner.completeSelection pending reply).1 = .ok .superseded →
      (s.planner.completeSelection pending reply).2 =
        { s.planner with
          phase := s.spentPhase pending.ticket
          inFlight := s.planner.inFlight.filter (·.2 ≠ pending.ticket.seq)
          stale := true }
  term : ∀ s', Step s s' → s'.planner.term ≠ s.planner.term →
    ∃ request r, s'.history = .answered request (.ok r) (.ok .applied) :: s.history

/-- A request that comes to nothing leaves the planner in its last good state. -/
theorem last_good_state {s : Session} (reach : Reach s) : Steadfast s where
  begin key e q := by
    rw [Script.run_begin]
    exact Script.run_ofStep_eq_error_iff
  beginSelection courseId typeKey choice e q := by
    rw [Script.run_beginSelection]
    exact Script.run_ofStep_eq_error_iff
  setActive courseId e q := by
    rw [Script.run_setActive, Script.run_ofStep_eq_error_iff]
    cases s.planner.setActive courseId <;> simp [Except.map]
  complete ticket member e :=
    have handed : s.history.Handed (.plain ticket) := member
    reach.answer_error handed e
  completeSelection pending member e :=
    have handed : s.history.Handed (.selection pending) := member
    reach.answer_error handed e
  superseded ticket member reply :=
    have handed : s.history.Handed (.plain ticket) := member
    reach.answer_superseded handed
  supersededSelection pending member reply :=
    have handed : s.history.Handed (.selection pending) := member
    reach.answer_superseded handed
  term s' step changed := step.change.term_eq.resolve_left changed

/-! ## A run -/

/-- A plan is loaded, then a selection change and the load of another term are on their way. -/
def switching : Session :=
  let loaded := (new.beginLoad none).answer (.plain ⟨.plan, 1, none⟩) (.ok (sample false))
  (loaded.beginSelection 1 "L" (some 11)).beginLoad (some "202710")

theorem reach_switching : Reach switching := by
  refine .tail (.tail (.tail (.tail .refl (.beginLoad _)) (.complete _ _ ?_))
    (.beginSelection _ _ _)) (.beginLoad _)
  exact List.mem_cons_self

/-- The load fails, so the planner is ready for the held term, and the selection change keeps its
group. A request for an unknown course is refused and uses up no number. -/
theorem last_good_state_switching :
    switching.planner.phase = .loading ∧
      switching.planner.complete ⟨.plan, 3, some "202710"⟩ (.error (.invalid "no such term")) =
        (.error (.store (.invalid "no such term")), { switching.planner with phase := .ready }) ∧
      switching.planner.term = some "202620" ∧
      switching.planner.inFlight = [((1, "L"), 2)] ∧
      (Script.begin (.course 9)).run switching.planner =
        .error (.unknownCourse 9) switching.planner := by
  have held := last_good_state reach_switching
  refine ⟨by decide, ?_, by decide, by decide, (held.begin _ _ _).mpr ⟨rfl, rfl⟩⟩
  exact held.complete _ (by decide) _

end Session

end Timetable.Planner
