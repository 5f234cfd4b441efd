import Timetable.Proofs.Service.Convergence

/-!
# Planner and store in lockstep

Operations that run one after another, each to its end, over a store in memory. From the first load
on the planner is in step with the store after every one of them (`InStep`), and one that fails
leaves all that can be seen as it was (`Untouched`). The stage that an operation has reached carries
the proof: a planner that awaits the answer to its newest ticket (`Awaits`) and is given what the
store holds is in step with it (`Awaits.applied`), and a failed answer leaves the planner that began
(`InStep.ends_error`). Main statement: `lockstep`.
-/

namespace Timetable.Service

/-- A planner with its store, between two operations. -/
structure Desk where
  planner : Planner
  store : Store.Memory

/-- What can be asked of the service. -/
inductive Ask where
  | perform (op : Operation)
  /-- Makes a course the active one, or none. The store is not called. -/
  | setActive (courseId : Option Int)
  deriving DecidableEq

/-- Whether a plan is loaded. -/
def Ask.loads : Ask → Bool
  | perform (.load _) => true
  | _ => false

theorem Ask.eq_load (ask : Ask) (loads : ask.loads = true) :
    ∃ term, ask = .perform (.load term) := by
  cases ask with
  | perform op =>
    cases op with
    | load term => exact ⟨term, rfl⟩
    | _ => cases loads
  | setActive courseId => cases loads

namespace Desk

/-- The planner before anything was loaded, with the store of a seed. -/
def ofSeed (seed : Store.Seed) : Desk := ⟨.new, .ofSeed seed⟩

/-- Runs an operation from where it stands to its end. -/
def run (d : Desk) (progress : Progress) : Except PlannerError Success × Desk :=
  let ended := progress.run Store.Memory.server d.planner d.store
  (ended.1, ⟨ended.2.1, ended.2.2⟩)

/-- Does what is asked. Only an operation has something to return. -/
def answer (d : Desk) : Ask → Except PlannerError (Option Success) × Desk
  | .perform op =>
    let ended := d.planner.perform Store.Memory.server d.store op
    (ended.1.map some, ⟨ended.2.1, ended.2.2⟩)
  | .setActive courseId =>
    match d.planner.setActive courseId with
    | .error e => (.error e, d)
    | .ok p => (.ok none, { d with planner := p })

/-- The desk after everything in a list was asked, one after the other. -/
def after (d : Desk) (asks : List Ask) : Desk := asks.foldl (fun held ask => (held.answer ask).2) d

theorem run_finished (d : Desk) (result : Except PlannerError Success) :
    d.run (.finished result) = (result, d) := by
  rw [run, Progress.run]

theorem run_waiting (p : Planner) (m : Store.Memory) {k : Store.Kind} (call : Store.Call k)
    (stage : Stage k) :
    run ⟨p, m⟩ (.waiting call stage) =
      run ⟨(p.resume stage (m.serve call).1).1, (m.serve call).2⟩
        (p.resume stage (m.serve call).1).2 := by
  rw [run, Progress.run]
  rfl

theorem answer_perform (d : Desk) (op : Operation) :
    d.answer (.perform op) =
      ((run ⟨(d.planner.start op).1, d.store⟩ (d.planner.start op).2).1.map some,
        (run ⟨(d.planner.start op).1, d.store⟩ (d.planner.start op).2).2) := rfl

end Desk

/-! ## In step -/

/-- The planner has loaded what the store holds, and nothing is on its way. -/
structure InStep (d : Desk) : Prop where
  plan : d.planner.plan = .ofRecord d.store.snapshot
  term : d.planner.term = d.store.term
  phase : d.planner.phase = .ready
  stale : d.planner.stale = false
  inFlight : d.planner.inFlight = []
  loaded : d.planner.appliedSeq ≠ 0
  bounded : d.planner.appliedSeq ≤ d.planner.lastSeq

/-- The store and all that the planner shows are as they were. Tickets may have been handed out. -/
structure Untouched (d d' : Desk) : Prop where
  store : d'.store = d.store
  plan : d'.planner.plan = d.planner.plan
  term : d'.planner.term = d.planner.term
  conflicts : d'.planner.conflicts = d.planner.conflicts
  active : d'.planner.active = d.planner.active
  phase : d'.planner.phase = d.planner.phase

theorem Untouched.refl (d : Desk) : Untouched d d := ⟨rfl, rfl, rfl, rfl, rfl, rfl⟩

theorem Untouched.trans {d d' d'' : Desk} (first : Untouched d d') (second : Untouched d' d'') :
    Untouched d d'' where
  store := second.store.trans first.store
  plan := second.plan.trans first.plan
  term := second.term.trans first.term
  conflicts := second.conflicts.trans first.conflicts
  active := second.active.trans first.active
  phase := second.phase.trans first.phase

/-- The planner and the store are in step at the end, and a failure has touched nothing. -/
structure Ends {α : Type} (d : Desk) (ended : Except PlannerError α × Desk) : Prop where
  inStep : InStep ended.2
  untouched : ∀ e, ended.1 = .error e → Untouched d ended.2

section Ends

variable {α : Type} {d d' : Desk} {ended : Except PlannerError α × Desk}

theorem Ends.of_untouched (same : Untouched d d') (ends : Ends d' ended) : Ends d ended :=
  ⟨ends.inStep, fun e failed => same.trans (ends.untouched e failed)⟩

theorem InStep.ends_unchanged (inStep : InStep d) (result : Except PlannerError α) :
    Ends d (result, d) :=
  ⟨inStep, fun _ _ => .refl d⟩

theorem InStep.ends_ok (inStep : InStep d') (result : α) : Ends d (.ok result, d') :=
  ⟨inStep, nofun⟩

end Ends

/-! ## The answer to the newest ticket -/

/-- A planner to which a ticket was handed out last, with nothing else on its way. -/
structure Awaits (p : Planner) (ticket : Ticket) : Prop where
  latest : p.isLatest ticket = true
  newer : p.appliedSeq < ticket.seq
  bounded : ticket.seq ≤ p.lastSeq
  stale : p.stale = false
  inFlight : p.inFlight = []
  lands : p.phaseAfter ticket ticket.seq = .ready

theorem isLatest_issue (p : Planner) (key : RequestKey) (term : Option String) :
    (p.issue key term).2.isLatest (p.issue key term).1 = true := by
  simp [Planner.issue, Planner.isLatest, valueOf?_setValue]

theorem settle_of_fresh {p : Planner} (fresh : p.stale = false) (result : Success) :
    p.settle result = (p, .finished (.ok result)) := by
  have same : { p with stale := false } = p := by rw [← fresh]
  simp only [Planner.settle, Planner.takeStale, fresh, same]

section Stages

variable {p : Planner} {m : Store.Memory} {ticket : Ticket}

theorem InStep.awaits (inStep : InStep ⟨p, m⟩) (key : RequestKey) :
    Awaits (p.issue key p.term).2 (p.issue key p.term).1 where
  latest := isLatest_issue p key p.term
  newer := Nat.lt_succ_of_le inStep.bounded
  bounded := Nat.le_refl _
  stale := inStep.stale
  inFlight := inStep.inFlight
  lands := by
    have ready : (p.issue key p.term).2.phase = .ready := inStep.phase
    simp [Planner.phaseAfter, ready]

theorem InStep.issue (inStep : InStep ⟨p, m⟩) (key : RequestKey) :
    InStep ⟨(p.issue key p.term).2, m⟩ :=
  { inStep with bounded := Nat.le_succ_of_le inStep.bounded }

theorem untouched_issue (key : RequestKey) :
    Untouched ⟨p, m⟩ ⟨(p.issue key p.term).2, m⟩ :=
  ⟨rfl, rfl, rfl, rfl, rfl, rfl⟩

/-- What the store holds, as the answer to the newest ticket, puts the planner in step. -/
theorem Awaits.applied (awaits : Awaits p ticket)
    (agrees : (m.term.or ticket.term).or p.term = m.term) :
    ∃ q, p.complete ticket (.ok m.snapshot) = (.ok .applied, q) ∧ InStep ⟨q, m⟩ := by
  refine ⟨_, Planner.complete_applied p m.snapshot awaits.latest awaits.newer, ?_⟩
  exact
    { plan := rfl
      term := agrees
      phase := awaits.lands
      stale := awaits.stale
      inFlight := awaits.inFlight
      loaded := Nat.ne_of_gt (Nat.zero_lt_of_lt awaits.newer)
      bounded := awaits.bounded }

theorem Awaits.ends_ok (awaits : Awaits p ticket) {call : Store.Call .plan} {r : PlanRecord}
    (served : (m.serve call).1 = .ok r) (summary : Option BuildSummary)
    (agrees : ((m.serve call).2.term.or ticket.term).or p.term = (m.serve call).2.term) (d : Desk) :
    Ends d (Desk.run ⟨p, m⟩ (.waiting call (.adopt ticket summary))) := by
  obtain ⟨q, completed, inStep⟩ := awaits.applied agrees
  have answered : (m.serve call).1 = .ok (m.serve call).2.snapshot := by
    rw [served, Store.Memory.serve_ok served]
  rw [Desk.run_waiting, answered]
  simp only [Planner.resume, Planner.settleOutcome, completed, settle_of_fresh inStep.stale,
    Desk.run_finished]
  exact inStep.ends_ok _

/-- To fetch the plan never fails. -/
theorem Awaits.ends_fetch (awaits : Awaits p ticket) (summary : Option BuildSummary)
    (agrees : ((ticket.term.or m.term).or ticket.term).or p.term = ticket.term.or m.term)
    (d : Desk) :
    Ends d (Desk.run ⟨p, m⟩ (.waiting (.fetchPlan ticket.term) (.adopt ticket summary))) := by
  refine awaits.ends_ok rfl summary ?_ d
  rw [Store.Memory.serve_term]
  exact agrees

/-- A failed answer leaves a planner that is in step as it is. -/
theorem InStep.complete_error (inStep : InStep ⟨p, m⟩) (ticket : Ticket) (e : Store.Error) :
    p.complete ticket (.error e) = (.error (.store e), p) := by
  have stays : p.phaseAfter ticket p.appliedSeq = p.phase := by
    have ready : p.phase = .ready := inStep.phase
    simp [Planner.phaseAfter, ready]
  rw [Planner.complete_error, stays]

theorem InStep.ends_error (inStep : InStep ⟨p, m⟩) {call : Store.Call .plan} {e : Store.Error}
    (failed : (m.serve call).1 = .error e) (ticket : Ticket) (summary : Option BuildSummary) :
    Ends ⟨p, m⟩ (Desk.run ⟨p, m⟩ (.waiting call (.adopt ticket summary))) := by
  rw [Desk.run_waiting, failed, Store.Memory.serve_error failed]
  simp only [Planner.resume, Planner.settleOutcome, inStep.complete_error, Desk.run_finished]
  exact inStep.ends_unchanged _

theorem InStep.ends_refuse (inStep : InStep ⟨p, m⟩) (e : PlannerError) :
    Ends ⟨p, m⟩ (Desk.run ⟨(p.refuse e).1, m⟩ (p.refuse e).2) := by
  rw [Planner.refuse, Desk.run_finished]
  exact inStep.ends_unchanged _

/-- The ticket asks for the term of the store, so the answer to it does not change the term. -/
theorem InStep.ends_adopt (inStep : InStep ⟨p, m⟩) (awaits : Awaits p ticket)
    (held : ticket.term = p.term) (call : Store.Call .plan)
    (scope : call.scope = none ∨ call.scope = ticket.term) (summary : Option BuildSummary) :
    Ends ⟨p, m⟩ (Desk.run ⟨p, m⟩ (.waiting call (.adopt ticket summary))) := by
  cases served : (m.serve call).1 with
  | error e => exact inStep.ends_error served ticket summary
  | ok r =>
    refine awaits.ends_ok served summary ?_ _
    have term : p.term = m.term := inStep.term
    have kept : (m.serve call).2.term = m.term := by
      rw [Store.Memory.serve_term]
      rcases scope with scope | scope <;> simp [scope, held, term]
    rw [kept, held, term, Option.or_self, Option.or_self]

/-- The plan is fetched behind a change that left the term. -/
theorem InStep.ends_fetch (inStep : InStep ⟨p, m⟩) (awaits : Awaits p ticket)
    (held : ticket.term = p.term) {m' : Store.Memory} (kept : m'.term = m.term)
    (summary : Option BuildSummary) (d : Desk) :
    Ends d (Desk.run ⟨p, m'⟩ (.waiting (.fetchPlan ticket.term) (.adopt ticket summary))) := by
  have term : p.term = m.term := inStep.term
  refine awaits.ends_fetch summary ?_ d
  rw [kept, held, term, Option.or_self, Option.or_self, Option.or_self]

/-- A change that is answered with nothing, and the fetch behind it. -/
theorem InStep.ends_refetch (inStep : InStep ⟨p, m⟩) (awaits : Awaits p ticket)
    (held : ticket.term = p.term) {call : Store.Call .done} (scope : call.scope = none) :
    Ends ⟨p, m⟩ (Desk.run ⟨p, m⟩ (.waiting call (.refetch ticket))) := by
  rw [Desk.run_waiting]
  cases served : (m.serve call).1 with
  | error e =>
    rw [Store.Memory.serve_error served]
    simp only [Planner.resume, Planner.settleOutcome, inStep.complete_error, Desk.run_finished]
    exact inStep.ends_unchanged _
  | ok done =>
    have kept : (m.serve call).2.term = m.term := by
      rw [Store.Memory.serve_term, scope, Option.none_or]
    exact inStep.ends_fetch awaits held kept none _

/-! ## Operations -/

theorem InStep.ends_beginCall (inStep : InStep ⟨p, m⟩) (key : RequestKey) {k : Store.Kind}
    (call : Ticket → Store.Call k) (stage : Ticket → Stage k)
    (asked : ∀ ticket q, InStep ⟨q, m⟩ → Awaits q ticket → ticket.term = q.term →
      Ends ⟨q, m⟩ (Desk.run ⟨q, m⟩ (.waiting (call ticket) (stage ticket)))) :
    Ends ⟨p, m⟩
      (Desk.run ⟨(p.beginCall key call stage).1, m⟩ (p.beginCall key call stage).2) := by
  unfold Planner.beginCall
  cases begun : p.begin key with
  | error e => exact inStep.ends_refuse e
  | ok handed =>
    obtain ⟨ticket, q⟩ := handed
    obtain ⟨-, -, issued⟩ := Planner.begin_eq_ok_iff.mp begun
    cases issued
    exact .of_untouched (untouched_issue key) (asked _ _ (inStep.issue key) (inStep.awaits key) rfl)

/-- Once the group of a selection change is freed, the change is a request like any other. -/
theorem InStep.ends_select (inStep : InStep ⟨p, m⟩) (courseId : Int) (typeKey : String)
    (choice : Option Int) :
    Ends ⟨p, m⟩ (Desk.run ⟨(p.start (.select courseId typeKey choice)).1, m⟩
      (p.start (.select courseId typeKey choice)).2) := by
  simp only [Planner.start]
  cases begun : p.beginSelection courseId typeKey choice with
  | error e => exact inStep.ends_refuse e
  | ok handed =>
    obtain ⟨pending, q⟩ := handed
    obtain ⟨-, -, next, -, rfl, rfl⟩ := Planner.beginSelection_eq_ok_iff.mp begun
    generalize p.plan.courseSelection courseId next = sectionIds
    have idle : p.inFlight = [] := inStep.inFlight
    have freed : Planner.release
        { (p.issue (.selection courseId typeKey) p.term).2 with
          inFlight := setValue (courseId, typeKey) (p.lastSeq + 1) p.inFlight }
        ⟨(p.issue (.selection courseId typeKey) p.term).1, courseId, typeKey, sectionIds⟩ =
        (p.issue (.selection courseId typeKey) p.term).2 := by
      simp [Planner.release, Planner.issue, idle, setValue, valueOf?, dropValue]
    have ends : Ends ⟨(p.issue (.selection courseId typeKey) p.term).2, m⟩ _ :=
      (inStep.issue _).ends_adopt (inStep.awaits _) rfl (.selectSections courseId sectionIds)
        (.inl rfl) none
    refine .of_untouched (untouched_issue (.selection courseId typeKey)) ?_
    rw [Desk.run_waiting] at ends ⊢
    simp only [Planner.resume, Planner.completeSelection, freed]
    exact ends

/-- A load that nothing overtakes never fails. -/
theorem ends_load (fresh : p.stale = false) (idle : p.inFlight = [])
    (bounded : p.appliedSeq ≤ p.lastSeq) (known : p.term = none ∨ p.term = m.term)
    (term : Option String) (d : Desk) :
    Ends d (Desk.run ⟨(p.start (.load term)).1, m⟩ (p.start (.load term)).2) := by
  have awaits : Awaits (p.beginLoad term).2 (p.beginLoad term).1 :=
    { latest := isLatest_issue _ _ _
      newer := Nat.lt_succ_of_le bounded
      bounded := Nat.le_refl _
      stale := fresh
      inFlight := idle
      lands := by
        rw [Planner.phaseAfter, if_pos ⟨rfl, isLatest_issue _ _ _, rfl⟩]
        exact if_neg (Nat.succ_ne_zero _) }
  refine awaits.ends_fetch none ?_ d
  show ((((term.or p.term).or m.term).or (term.or p.term)).or p.term) = (term.or p.term).or m.term
  rcases known with known | known <;> rw [known] <;> cases term <;> cases m.term <;> rfl

/-- The store builds, and then the plan is fetched with a ticket of its own. -/
theorem InStep.ends_autoBuild (inStep : InStep ⟨p, m⟩) :
    Ends ⟨p, m⟩ (Desk.run ⟨(p.start .autoBuild).1, m⟩ (p.start .autoBuild).2) := by
  have started : p.start .autoBuild = (p, .waiting .autoBuild .collect) := by
    have loaded : p.ensureLoaded = .ok () := by
      simp [Planner.ensureLoaded, Planner.isLoaded, inStep.loaded]
    unfold Planner.start
    rw [loaded]
  have resumed : p.resume .collect (m.serve .autoBuild).1 =
      ((p.issue .plan p.term).2, .waiting (.fetchPlan p.term) (.adopt (p.issue .plan p.term).1
        (some ⟨m.schedule.message, m.schedule.unplaced⟩))) := by
    show p.beginCall .plan _ _ = _
    unfold Planner.beginCall
    rw [Planner.begin_plan inStep.loaded]
    rfl
  rw [started, Desk.run_waiting, resumed]
  have kept : (m.serve .autoBuild).2.term = m.term := rfl
  exact (inStep.issue .plan).ends_fetch (inStep.awaits .plan) rfl kept _ _

theorem InStep.ends_perform {d : Desk} (inStep : InStep d) (op : Operation) :
    Ends d (Desk.run ⟨(d.planner.start op).1, d.store⟩ (d.planner.start op).2) := by
  obtain ⟨p, m⟩ := d
  cases op with
  | load term =>
    exact ends_load inStep.stale inStep.inFlight inStep.bounded (.inr inStep.term) term _
  | refresh =>
    exact inStep.ends_beginCall _ _ _ fun ticket q inStep awaits held =>
      inStep.ends_adopt awaits held _ (.inr rfl) none
  | select courseId typeKey choice => exact inStep.ends_select courseId typeKey choice
  | addCourse code term =>
    simp only [Planner.start]
    cases p.termFor term with
    | error e => exact inStep.ends_refuse e
    | ok term =>
      exact inStep.ends_beginCall _ _ _ fun ticket q inStep awaits held =>
        inStep.ends_adopt awaits held _ (.inl rfl) none
  | removeCourse courseId =>
    exact inStep.ends_beginCall _ _ _ fun ticket q inStep awaits held =>
      inStep.ends_refetch awaits held rfl
  | refreshCourse courseId force =>
    exact inStep.ends_beginCall _ _ _ fun ticket q inStep awaits held =>
      inStep.ends_adopt awaits held _ (.inl rfl) none
  | autoBuild => exact inStep.ends_autoBuild
  | reset term =>
    exact inStep.ends_beginCall _ _ _ fun ticket q inStep awaits held =>
      inStep.ends_refetch awaits held rfl

end Stages

namespace Desk

variable {d : Desk}

theorem ends_answer_perform {op : Operation}
    (ends : Ends d (run ⟨(d.planner.start op).1, d.store⟩ (d.planner.start op).2)) :
    Ends d (d.answer (.perform op)) := by
  rw [answer_perform]
  generalize run ⟨(d.planner.start op).1, d.store⟩ (d.planner.start op).2 = ended at ends ⊢
  obtain ⟨result, left⟩ := ended
  refine ⟨ends.inStep, fun e failed => ends.untouched e ?_⟩
  cases result with
  | error e' => cases failed; rfl
  | ok success => cases failed

/-- In step with the store, the planner stays so whatever is asked. -/
theorem ends_answer (inStep : InStep d) (ask : Ask) : Ends d (d.answer ask) := by
  cases ask with
  | perform op => exact ends_answer_perform (inStep.ends_perform op)
  | setActive courseId =>
    simp only [answer]
    cases changed : d.planner.setActive courseId with
    | error e => exact inStep.ends_unchanged _
    | ok q =>
      obtain ⟨-, rfl⟩ := Planner.setActive_eq_ok_iff.mp changed
      have active : InStep { d with planner := { d.planner with active := courseId } } :=
        { inStep with }
      exact active.ends_ok none

theorem inStep_after (inStep : InStep d) (asks : List Ask) : InStep (d.after asks) := by
  induction asks generalizing d with
  | nil => exact inStep
  | cons ask rest ih => exact ih (ends_answer inStep ask).inStep

/-! ## Before the first load -/

variable {seed : Store.Seed}

theorem ends_load_ofSeed (term : Option String) :
    Ends (ofSeed seed) ((ofSeed seed).answer (.perform (.load term))) :=
  ends_answer_perform (ends_load rfl rfl (Nat.le_refl _) (.inl rfl) term _)

theorem start_unloaded (op : Operation) (other : (Ask.perform op).loads = false) :
    Planner.new.start op = (.new, .finished (.error .notReady)) := by
  cases op with
  | load term => cases other
  | refresh => rfl
  | select courseId typeKey choice => rfl
  | addCourse code term => rfl
  | removeCourse courseId => rfl
  | refreshCourse courseId force => rfl
  | autoBuild => rfl
  | reset term => rfl

/-- Until a plan is loaded every other operation is refused. -/
theorem answer_unloaded (op : Operation) (other : (Ask.perform op).loads = false) :
    (ofSeed seed).answer (.perform op) = (.error .notReady, ofSeed seed) := by
  rw [answer_perform]
  simp only [ofSeed, start_unloaded op other, run_finished]
  rfl

theorem stays_unloaded (ask : Ask) (other : ask.loads = false) :
    ((ofSeed seed).answer ask).2 = ofSeed seed := by
  cases ask with
  | perform op => rw [answer_unloaded op other]
  | setActive courseId => cases courseId <;> rfl

theorem after_unloaded {asks : List Ask} (none_loads : asks.any Ask.loads = false) :
    (ofSeed seed).after asks = ofSeed seed := by
  induction asks with
  | nil => rfl
  | cons ask rest ih =>
    rw [List.any_cons, Bool.or_eq_false_iff] at none_loads
    rw [after, List.foldl_cons, stays_unloaded ask none_loads.1]
    exact ih none_loads.2

theorem inStep_of_loads {asks : List Ask} (loads : asks.any Ask.loads = true) :
    InStep ((ofSeed seed).after asks) := by
  induction asks with
  | nil => cases loads
  | cons ask rest ih =>
    rw [after, List.foldl_cons]
    cases here : ask.loads with
    | true =>
      obtain ⟨term, rfl⟩ := ask.eq_load here
      exact inStep_after (ends_load_ofSeed term).inStep rest
    | false =>
      rw [stays_unloaded ask here]
      exact ih (by simpa [here] using loads)

end Desk

/-- What holds of the service after a list of things was asked of it, one after the other. -/
structure Lockstep (seed : Store.Seed) (asks : List Ask) (d : Desk) : Prop where
  /-- From the first load on the planner is in step with its store. -/
  inStep : asks.any Ask.loads = true → InStep d
  /-- Before the first load nothing has changed, and everything that needs a plan is refused. -/
  unloaded : asks.any Ask.loads = false →
    d = .ofSeed seed ∧
      (∀ op, (Ask.perform op).loads = false → d.answer (.perform op) = (.error .notReady, d)) ∧
      ∀ id, d.answer (.setActive (some id)) = (.error (.unknownCourse id), d)
  /-- What fails next touches nothing. -/
  untouched : ∀ ask e, (d.answer ask).1 = .error e → Untouched d (d.answer ask).2

theorem lockstep (seed : Store.Seed) (asks : List Ask) :
    Lockstep seed asks ((Desk.ofSeed seed).after asks) where
  inStep := Desk.inStep_of_loads
  unloaded := by
    intro none_loads
    rw [Desk.after_unloaded none_loads]
    exact ⟨rfl, fun op other => Desk.answer_unloaded op other, fun id => rfl⟩
  untouched := by
    intro ask e failed
    cases loads : asks.any Ask.loads with
    | true => exact (Desk.ends_answer (Desk.inStep_of_loads loads) ask).untouched e failed
    | false =>
      rw [Desk.after_unloaded loads] at failed ⊢
      cases here : ask.loads with
      | true =>
        obtain ⟨term, rfl⟩ := ask.eq_load here
        exact (Desk.ends_load_ofSeed term).untouched e failed
      | false =>
        rw [Desk.stays_unloaded ask here]
        exact .refl _

theorem after_load_shelf :
    (Desk.ofSeed shelf).after [.perform (.load none)] = ⟨loadedSession.planner, .ofSeed shelf⟩ := by
  have asked : Planner.new.start (.load none) =
      ((Planner.new.beginLoad none).2, .waiting (.fetchPlan none) (.adopt ⟨.plan, 1, none⟩ none)) :=
    rfl
  rw [Desk.after, List.foldl_cons, List.foldl_nil, Desk.answer_perform]
  show (Desk.run ⟨(Planner.new.start _).1, _⟩ (Planner.new.start _).2).2 = _
  rw [asked, Desk.run_waiting]
  exact congrArg Prod.snd (Desk.run_finished _ _)

/-- The store does not have the catalog course that is to be added. -/
theorem addCourse_shelf :
    (Desk.answer ⟨loadedSession.planner, .ofSeed shelf⟩ (.perform (.addCourse "CS 2233" none))).1 =
      .error (.store (.notFound "catalog course CS 2233")) := by
  have asked : loadedSession.planner.start (.addCourse "CS 2233" none) =
      ((loadedSession.planner.issue .plan (some "202620")).2,
        .waiting (.addCourse "CS 2233" "202620") (.adopt ⟨.plan, 2, some "202620"⟩ none)) := rfl
  rw [Desk.answer_perform, asked, Desk.run_waiting]
  exact congrArg (Except.map some ·.1) (Desk.run_finished _ _)

/-- A refresh before the first load is refused, and after it a course cannot be added that the
catalog does not have. -/
theorem lockstep_shelf :
    (Desk.ofSeed shelf).answer (.perform .refresh) = (.error .notReady, .ofSeed shelf) ∧
      InStep ⟨loadedSession.planner, .ofSeed shelf⟩ ∧
      Untouched ⟨loadedSession.planner, .ofSeed shelf⟩
        (Desk.answer ⟨loadedSession.planner, .ofSeed shelf⟩
          (.perform (.addCourse "CS 2233" none))).2 := by
  have before := (lockstep shelf []).unloaded rfl
  have after := lockstep shelf [.perform (.load none)]
  rw [after_load_shelf] at after
  exact ⟨before.2.1 .refresh rfl, after.inStep rfl, after.untouched _ _ addCourse_shelf⟩

end Timetable.Service
