import Timetable.Planner.Basic

/-!
# What the planner's operations do

One equation for each operation of the planner, with the new state written out field by field, so
that no later proof opens an operation. `Planner.begin_eq_ok_iff` and
`Planner.beginSelection_eq_ok_iff` say when a request is handed out and what it leaves;
`Planner.complete_error`, `Planner.complete_applied` and `Planner.complete_superseded` are the three
fates of an answer. The phase in which an answer leaves the planner is `Planner.phaseAfter`.
-/

namespace Timetable

/-! ## Lists of pairs -/

section Values

variable {α : Type} [DecidableEq α]

theorem valueOf?_setValue (key k : α) (value : Nat) (values : List (α × Nat)) :
    valueOf? k (setValue key value values) =
      if key = k then some value else valueOf? k values := by
  induction values with
  | nil => rfl
  | cons entry rest ih =>
    obtain ⟨first, held⟩ := entry
    by_cases here : first = key
    · subst here
      by_cases same : first = k
      · simp only [setValue, valueOf?, same, if_true]
      · simp only [setValue, valueOf?, same, if_true, if_false]
    · by_cases same : first = k
      · subst same
        simp only [setValue, valueOf?, here, if_true, if_false, Ne.symm here]
      · simp only [setValue, valueOf?, here, same, if_false]
        exact ih

theorem valueOf?_dropValue (key k : α) (values : List (α × Nat)) :
    valueOf? k (dropValue key values) = if key = k then none else valueOf? k values := by
  induction values with
  | nil => simp only [dropValue, List.filter_nil, valueOf?, ite_self]
  | cons entry rest ih =>
    obtain ⟨first, held⟩ := entry
    unfold dropValue at ih ⊢
    by_cases here : first = key
    · subst here
      rw [List.filter_cons_of_neg (by simp), ih]
      by_cases same : first = k
      · simp only [same, if_true]
      · simp only [valueOf?, same, if_false]
    · rw [List.filter_cons_of_pos (by simpa using here)]
      by_cases same : first = k
      · subst same
        simp only [valueOf?, if_true, Ne.symm here, if_false]
      · simp only [valueOf?, same, if_false]
        exact ih

/-- A list of pairs in which no key has a value is empty. -/
theorem eq_nil_of_valueOf? {values : List (α × Nat)} (none_held : ∀ k, valueOf? k values = none) :
    values = [] := by
  cases values with
  | nil => rfl
  | cons entry rest =>
    have held := none_held entry.1
    simp only [valueOf?, if_true] at held
    cases held

/-- A key with an entry of its own is in a list with new entries when it was there or is new. -/
theorem mem_keys_setValue {key k : α} {value : Nat} {values : List (α × Nat)} :
    k ∈ (setValue key value values).map Prod.fst ↔ k = key ∨ k ∈ values.map Prod.fst := by
  induction values with
  | nil => simp [setValue]
  | cons entry rest ih =>
    obtain ⟨first, held⟩ := entry
    by_cases here : first = key
    · simp [setValue, here]
    · rw [setValue, if_neg here, List.map_cons, List.mem_cons, ih, List.map_cons, List.mem_cons]
      exact or_left_comm

theorem nodup_keys_setValue (key : α) (value : Nat) {values : List (α × Nat)}
    (distinct : (values.map Prod.fst).Nodup) :
    ((setValue key value values).map Prod.fst).Nodup := by
  induction values with
  | nil => exact List.nodup_cons.mpr ⟨List.not_mem_nil, .nil⟩
  | cons entry rest ih =>
    obtain ⟨first, held⟩ := entry
    obtain ⟨apart, distinct⟩ := List.nodup_cons.mp distinct
    by_cases here : first = key
    · subst here
      rw [setValue, if_pos rfl]
      exact List.nodup_cons.mpr ⟨apart, distinct⟩
    · rw [setValue, if_neg here]
      refine List.nodup_cons.mpr ⟨fun among => ?_, ih distinct⟩
      rcases mem_keys_setValue.mp among with same | earlier
      · exact here same
      · exact apart earlier

/-- Where no key has two values, an entry is what a key looks up. -/
theorem mem_iff_valueOf? {values : List (α × Nat)} (distinct : (values.map Prod.fst).Nodup)
    {key : α} {value : Nat} : (key, value) ∈ values ↔ valueOf? key values = some value := by
  induction values with
  | nil => simp [valueOf?]
  | cons entry rest ih =>
    obtain ⟨first, held⟩ := entry
    obtain ⟨apart, distinct⟩ := List.nodup_cons.mp distinct
    rw [List.mem_cons, ih distinct]
    by_cases here : first = key
    · subst here
      have absent : valueOf? first rest ≠ some value := fun found =>
        apart (List.mem_map.mpr ⟨(first, value), (ih distinct).mpr found, rfl⟩)
      simp [valueOf?, absent, eq_comm]
    · simp [valueOf?, here, Ne.symm here]

end Values

namespace Planner

/-! ## Handing out requests -/

theorem begin_eq_ok_iff {p p' : Planner} {key : RequestKey} {ticket : Ticket} :
    p.begin key = .ok (ticket, p') ↔
      p.appliedSeq ≠ 0 ∧ (∀ id, key.courseId? = some id → p.plan.hasCourse id = true) ∧
        p.issue key p.term = (ticket, p') := by
  by_cases loaded : p.appliedSeq = 0
  · simp [begin, ensureLoaded, isLoaded, loaded, bind, Except.bind]
  · cases about : key.courseId? with
    | none =>
      simp [begin, ensureLoaded, isLoaded, loaded, about, bind, Except.bind, pure, Except.pure]
    | some id =>
      by_cases known : p.plan.hasCourse id = true
      · simp [begin, ensureLoaded, isLoaded, loaded, about, known, bind, Except.bind, pure,
          Except.pure]
      · simp [begin, ensureLoaded, isLoaded, loaded, about, known, bind, Except.bind, throw,
          throwThe, MonadExceptOf.throw]

/-- A request for the whole plan is handed out whatever the plan is. -/
theorem begin_plan {p : Planner} (loaded : p.appliedSeq ≠ 0) :
    p.begin .plan = .ok (p.issue .plan p.term) :=
  begin_eq_ok_iff.mpr ⟨loaded, nofun, rfl⟩

/-- A selection change is handed out when a plan is held, the type group is free and the choice is
one of the course. -/
theorem beginSelection_eq_ok_iff {p p' : Planner} {courseId : Int} {typeKey : String}
    {choice : Option Int} {pending : PendingSelection} :
    p.beginSelection courseId typeKey choice = .ok (pending, p') ↔
      p.appliedSeq ≠ 0 ∧ p.isMutating courseId typeKey = false ∧
        ∃ next, p.plan.trySelect courseId typeKey choice = .ok next ∧
          pending = ⟨(p.issue (.selection courseId typeKey) p.term).1, courseId, typeKey,
            p.plan.courseSelection courseId next⟩ ∧
          p' = { (p.issue (.selection courseId typeKey) p.term).2 with
            inFlight := setValue (courseId, typeKey) (p.lastSeq + 1) p.inFlight } := by
  by_cases loaded : p.appliedSeq = 0
  · simp [beginSelection, ensureLoaded, isLoaded, loaded, bind, Except.bind]
  · cases busy : p.isMutating courseId typeKey with
    | true =>
      simp [beginSelection, ensureLoaded, isLoaded, loaded, busy, bind, Except.bind, throw,
        throwThe, MonadExceptOf.throw]
    | false =>
      cases tried : p.plan.trySelect courseId typeKey choice with
      | error e =>
        have mapped : (Except.error e : Except SelectionError IdSet).mapError
            PlannerError.selection = .error (.selection e) := rfl
        simp [beginSelection, ensureLoaded, isLoaded, loaded, busy, tried, mapped, bind,
          Except.bind]
      | ok next =>
        have mapped : (Except.ok next : Except SelectionError IdSet).mapError
            PlannerError.selection = .ok next := rfl
        simp [beginSelection, ensureLoaded, isLoaded, loaded, busy, tried, mapped, bind,
          Except.bind, pure, Except.pure, issue, eq_comm]

/-- A loaded planner is busy with a type group exactly while a change of it is in flight. -/
theorem beginSelection_eq_busy_iff {p : Planner} (loaded : p.isLoaded = true) {courseId : Int}
    {typeKey : String} {choice : Option Int} :
    p.beginSelection courseId typeKey choice = .error (.busy courseId typeKey) ↔
      p.isMutating courseId typeKey = true := by
  cases busy : p.isMutating courseId typeKey with
  | true =>
    simp [beginSelection, ensureLoaded, loaded, busy, bind, Except.bind, throw, throwThe,
      MonadExceptOf.throw]
  | false =>
    cases tried : p.plan.trySelect courseId typeKey choice with
    | error e =>
      have mapped : (Except.error e : Except SelectionError IdSet).mapError
          PlannerError.selection = .error (.selection e) := rfl
      simp [beginSelection, ensureLoaded, loaded, busy, tried, mapped, bind, Except.bind]
    | ok next =>
      have mapped : (Except.ok next : Except SelectionError IdSet).mapError
          PlannerError.selection = .ok next := rfl
      simp [beginSelection, ensureLoaded, loaded, busy, tried, mapped, bind, Except.bind, pure,
        Except.pure]

/-- A course becomes the active one when it is in the held plan; no course always may. -/
theorem setActive_eq_ok_iff {p p' : Planner} {courseId : Option Int} :
    p.setActive courseId = .ok p' ↔
      (∀ id, courseId = some id → p.plan.hasCourse id = true) ∧
        { p with active := courseId } = p' := by
  cases courseId with
  | none => simp [setActive]
  | some id => by_cases known : p.plan.hasCourse id = true <;> simp [setActive, known]

/-! ## Taking answers -/

/-- The phase after the answer to a ticket, when `applied` is then the number of the held plan: the
newest request for the whole plan ends a load. -/
def phaseAfter (p : Planner) (ticket : Ticket) (applied : Nat) : Phase :=
  if p.phase = .loading ∧ p.isLatest ticket = true ∧ ticket.key = .plan then
    if applied = 0 then .idle else .ready
  else p.phase

theorem finishLoading_eq (p : Planner) :
    p.finishLoading =
      { p with
        phase := if p.phase = .loading then if p.appliedSeq = 0 then .idle else .ready
          else p.phase } := by
  obtain ⟨phase⟩ := p
  cases phase with
  | idle => rfl
  | loading => simp only [finishLoading, isLoaded, ne_eq, decide_not, Bool.not_eq_eq_eq_not,
      Bool.not_true, decide_eq_false_iff_not, ite_not, if_true]
  | ready => rfl

/-- What `complete` leaves, whatever `adopt` has made of the answer. -/
theorem complete_eq (p : Planner) (ticket : Ticket) (reply : Except Store.Error PlanRecord)
    (kept : (p.adopt ticket reply).2.phase = p.phase) :
    p.complete ticket reply =
      ((p.adopt ticket reply).1,
        { (p.adopt ticket reply).2 with
          phase := p.phaseAfter ticket (p.adopt ticket reply).2.appliedSeq }) := by
  by_cases ends : p.isLatest ticket = true ∧ ticket.key = .plan
  · simp only [complete, phaseAfter, finishLoading_eq, kept, ends.1, ends.2, decide_true,
      Bool.and_self, and_self, and_true, if_true]
  · have stays : (p.isLatest ticket && decide (ticket.key = .plan)) = false := by
      simpa using ends
    have unended : ∀ applied, p.phaseAfter ticket applied = p.phase :=
      fun applied => if_neg fun h => ends h.2
    rw [unended, ← kept]
    simp only [complete, stays, if_false, Bool.false_eq_true]

/-- A failed request leaves everything but a load that it ends. -/
theorem complete_error (p : Planner) (ticket : Ticket) (e : Store.Error) :
    p.complete ticket (.error e) =
      (.error (.store e), { p with phase := p.phaseAfter ticket p.appliedSeq }) :=
  complete_eq p ticket (.error e) rfl

/-- An answer to the newest request of its key that is newer than the held plan replaces it. -/
theorem complete_applied (p : Planner) {ticket : Ticket} (r : PlanRecord)
    (latest : p.isLatest ticket = true) (newer : p.appliedSeq < ticket.seq) :
    p.complete ticket (.ok r) =
      (.ok .applied, { p.apply r ticket with phase := p.phaseAfter ticket ticket.seq }) := by
  have adopted : p.adopt ticket (.ok r) = (.ok .applied, p.apply r ticket) := by
    simp only [adopt, latest, newer, and_self, if_true]
  rw [complete_eq p ticket (.ok r) (by rw [adopted]; rfl), adopted]
  rfl

/-- Any other answer is dropped and marks the plan as stale. -/
theorem complete_superseded (p : Planner) {ticket : Ticket} (r : PlanRecord)
    (old : ¬(p.isLatest ticket = true ∧ p.appliedSeq < ticket.seq)) :
    p.complete ticket (.ok r) =
      (.ok .superseded,
        { p with stale := true, phase := p.phaseAfter ticket p.appliedSeq }) := by
  have dropped : p.adopt ticket (.ok r) = (.ok .superseded, { p with stale := true }) := by
    simp only [adopt, old, if_false]
  rw [complete_eq p ticket (.ok r) (by rw [dropped]), dropped]

/-- The completion of a ticket touches no type group in flight, whatever the answer. -/
theorem complete_inFlight (p : Planner) (ticket : Ticket)
    (reply : Except Store.Error PlanRecord) :
    (p.complete ticket reply).2.inFlight = p.inFlight := by
  cases reply with
  | error e => rw [complete_error]
  | ok r =>
    by_cases adopted : p.isLatest ticket = true ∧ p.appliedSeq < ticket.seq
    · rw [complete_applied p r adopted.1 adopted.2]
      rfl
    · rw [complete_superseded p r adopted]

/-- The fate of a successful answer. -/
theorem complete_ok_fst (p : Planner) (ticket : Ticket) (r : PlanRecord) :
    (p.complete ticket (.ok r)).1 =
      .ok (if p.isLatest ticket = true ∧ p.appliedSeq < ticket.seq then .applied
        else .superseded) := by
  by_cases adopted : p.isLatest ticket = true ∧ p.appliedSeq < ticket.seq
  · rw [complete_applied p r adopted.1 adopted.2, if_pos adopted]
  · rw [complete_superseded p r adopted, if_neg adopted]

end Planner

end Timetable
