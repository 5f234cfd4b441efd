import Timetable.Proofs.Service.Convergence

/-!
# What becomes of a dropped answer

A successful answer that is dropped marks the held plan as stale. The mark stays until an operation
takes it, and from then on a load of that operation is on its way (`Remembered`). When the load
comes back it is applied, or it is dropped and marks the plan again, or it fails. A failed load is
the one way in which the mark is lost (`Turn.remembered`): the operation that took it ends with the
error and does not put it back.

Main statements: `dropped_answer_remembered`, over any store, and `dropped_answer_forgotten`, the
run in which a failed load leaves the held plan without the change and without the mark.
-/

namespace Timetable

/-- The ticket of a load that makes up for a dropped answer. -/
def Stage.reload? : {k : Store.Kind} → Stage k → Option Ticket
  | _, .adopt .. => none
  | _, .adoptSelection _ => none
  | _, .refetch _ => none
  | _, .collect => none
  | _, .reload _ ticket => some ticket

namespace Service

/-- An operation has taken the mark, and the planner has not taken the answer to its load. The load
has yet to begin or has a ticket after the number `n`. -/
def Position.reloads (n : Nat) : Position → Bool
  | calling _ stage => stage.reload?.any (n < ·.seq)
  | answered stage _ => stage.reload?.any (n < ·.seq)
  | reloading _ => true
  | settling _ => false
  | finished _ => false

/-- The held plan is marked as stale, or an operation has taken the mark and reloads. -/
def Remembered {σ : Type} (n : Nat) (s : State σ) : Prop :=
  s.planner.stale = true ∨ ∃ x ∈ s.running, x.reloads n = true

instance {σ : Type} (n : Nat) (s : State σ) : Decidable (Remembered n s) :=
  inferInstanceAs (Decidable (_ ∨ _))

/-- The planner takes the failed answer to a load with a ticket after the number `n`. -/
def ReloadFails {σ : Type} (n : Nat) (s s' : State σ) : Prop :=
  ∃ before after result ticket e,
    s.running = before ++ .answered (.reload result ticket) (.error e) :: after ∧
      n < ticket.seq ∧ s'.running = before ++ .finished (.error (.store e)) :: after

section Turns

variable {σ : Type} (Serves : Serving σ)

/-- One step of the service: a step of an operation, or the choice of the active course, which takes
only one. -/
inductive Turn (s : State σ) : State σ → Prop
  | step {s' : State σ} : Step Serves s s' → Turn s s'
  | setActive (courseId : Option Int) (q : Planner) :
    s.planner.setActive courseId = .ok q → Turn s { s with planner := q }

/-- Any number of steps, of any operations in any order. -/
abbrev Turns : State σ → State σ → Prop := Relation.ReflTransGen (Turn Serves)

end Turns

/-! ## What a step does to the mark -/

theorem answer_stale {p : Planner} (marked : p.stale = true) (request : Planner.Request)
    (reply : Except Store.Error PlanRecord) : (p.answer request reply).2.stale = true := by
  cases reply with
  | error e =>
    rw [Planner.answer_eq, Planner.complete_error]
    exact marked
  | ok r =>
    have lands := answer_lands p request r
    generalize (p.answer request (.ok r)).1 = fate at lands
    cases lands with
    | applied _ _ _ _ stale => exact stale.trans marked
    | superseded _ _ _ stale => exact stale

/-- A dropped answer leaves the mark. -/
theorem stale_of_superseded {p : Planner} {request : Planner.Request}
    {reply : Except Store.Error PlanRecord}
    (dropped : (p.answer request reply).1 = .ok .superseded) :
    (p.answer request reply).2.stale = true := by
  cases reply with
  | error e =>
    rw [Planner.answer_eq, Planner.complete_error] at dropped
    cases dropped
  | ok r =>
    have lands := answer_lands p request r
    rw [dropped] at lands
    cases lands with
    | superseded _ _ _ stale => exact stale

theorem answer_lastSeq (p : Planner) (request : Planner.Request)
    (reply : Except Store.Error PlanRecord) : (p.answer request reply).2.lastSeq = p.lastSeq := by
  cases reply with
  | error e => rw [Planner.answer_eq, Planner.complete_error]
  | ok r => exact (answer_lands p request r).lastSeq

theorem Starts.keeps {p : Planner} {next : Planner × Progress} (starts : Starts p next) :
    next.1.stale = p.stale ∧ p.lastSeq ≤ next.1.lastSeq := by
  cases starts with
  | refused e => exact ⟨rfl, Nat.le_refl _⟩
  | building => exact ⟨rfl, Nat.le_refl _⟩
  | asking call stage issues next has =>
    exact ⟨issues.stale, issues.lastSeq ▸ Nat.le_succ _⟩

theorem starts_collect (p : Planner) (summary : BuildSummary) :
    Starts p (p.beginCall .plan (fun t => .fetchPlan t.term) (fun t => .adopt t (some summary))) :=
  starts_beginCall _ _ _ _ fun _ => rfl

section Advance

variable {σ : Type} {p : Planner} {n : Nat}

theorem Position.lastSeq_le_advance (x : Position) : p.lastSeq ≤ (x.advance σ p).1.lastSeq := by
  have landed : ∀ request reply, p.lastSeq ≤ (p.answer request reply).2.lastSeq :=
    fun request reply => Nat.le_of_eq (answer_lastSeq p request reply).symm
  cases x with
  | calling call stage => exact Nat.le_refl _
  | settling result => exact Nat.le_refl _
  | reloading result => exact Nat.le_succ _
  | finished result => exact Nat.le_refl _
  | answered stage reply =>
    cases stage with
    | adopt ticket summary => exact landed (.plain ticket) reply
    | adoptSelection pending => exact landed (.selection pending) reply
    | reload result ticket => exact landed (.plain ticket) reply
    | refetch ticket =>
      cases reply with
      | ok done => exact Nat.le_refl _
      | error e => exact landed (.plain ticket) (.error e)
    | collect =>
      cases reply with
      | ok summary => exact (starts_collect p summary).keeps.2
      | error e => exact Nat.le_refl _

/-- The mark stays, or the operation takes it to reload. -/
theorem Position.marked_advance (marked : p.stale = true) (x : Position) :
    (x.advance σ p).1.stale = true ∨ (x.advance σ p).2.1.reloads n = true := by
  cases x with
  | calling call stage => exact .inl marked
  | settling result =>
    rw [Position.advance_settling, marked]
    exact .inr rfl
  | reloading result => exact .inl marked
  | finished result => exact .inl marked
  | answered stage reply =>
    cases stage with
    | adopt ticket summary => exact .inl (answer_stale marked (.plain ticket) reply)
    | adoptSelection pending => exact .inl (answer_stale marked (.selection pending) reply)
    | reload result ticket => exact .inl (answer_stale marked (.plain ticket) reply)
    | refetch ticket =>
      cases reply with
      | ok done => exact .inl marked
      | error e => exact .inl (answer_stale marked (.plain ticket) (.error e))
    | collect =>
      cases reply with
      | ok summary => exact .inl ((starts_collect p summary).keeps.1.trans marked)
      | error e => exact .inl marked

/-- An operation that reloads goes on with that, until its load is applied, dropped or fails. -/
theorem Position.reloads_advance {x : Position} (le : n ≤ p.lastSeq)
    (reloads : x.reloads n = true) :
    (x.advance σ p).1.stale = true ∨ (x.advance σ p).2.1.reloads n = true ∨
      (∃ w, n < w ∧ (x.advance σ p).2.2 = [.landed w (.ok .applied)]) ∨
      ∃ result ticket e, x = .answered (.reload result ticket) (.error e) ∧ n < ticket.seq ∧
        (x.advance σ p).2.1 = .finished (.error (.store e)) := by
  cases x with
  | calling call stage => exact .inr (.inl reloads)
  | settling result => cases reloads
  | finished result => cases reloads
  | reloading result =>
    have after : n < p.lastSeq + 1 := Nat.lt_succ_of_le le
    exact .inr (.inl (decide_eq_true after))
  | answered stage reply =>
    cases stage with
    | adopt ticket summary => cases reloads
    | adoptSelection pending => cases reloads
    | refetch ticket => cases reloads
    | collect => cases reloads
    | reload result ticket =>
      have after : n < ticket.seq := of_decide_eq_true reloads
      cases reply with
      | ok r =>
        have lands := answer_lands p (.plain ticket) r
        simp only [Position.advance, Position.takeAnswer, Position.land, Stage.request]
        generalize (p.answer (.plain ticket) (.ok r)).1 = fate at lands ⊢
        cases lands with
        | applied _ _ _ _ _ => exact .inr (.inr (.inl ⟨ticket.seq, after, rfl⟩))
        | superseded _ _ _ stale => exact .inl stale
      | error e =>
        refine .inr (.inr (.inr ⟨result, ticket, e, rfl, after, ?_⟩))
        simp only [Position.advance, Position.takeAnswer, Position.land, Stage.request,
          Planner.answer_eq, Planner.Request.ticket, Planner.complete_error, Position.completed]

end Advance

/-! ## What a step does to what is remembered -/

section Remembering

variable {σ : Type} {Serves : Serving σ} {s s' : State σ} {n : Nat}

theorem Turn.lastSeq_le (turn : Turn Serves s s') : s.planner.lastSeq ≤ s'.planner.lastSeq := by
  cases turn with
  | setActive courseId q set =>
    obtain ⟨-, rfl⟩ := Planner.setActive_eq_ok_iff.mp set
    exact Nat.le_refl _
  | step step =>
    cases step with
    | start op => exact (starts_start s.planner op).keeps.2
    | serve call stage before after reply store here served => exact Nat.le_refl _
    | advance before x after here => exact x.lastSeq_le_advance

theorem Turn.trace_suffix (turn : Turn Serves s s') : s.trace <:+ s'.trace := by
  cases turn with
  | setActive courseId q set => exact List.suffix_refl _
  | step step =>
    cases step with
    | start op => exact List.suffix_refl _
    | serve call stage before after reply store here served => exact List.suffix_cons _ _
    | advance before x after here => exact List.suffix_append _ _

theorem Turns.lastSeq_le (turns : Turns Serves s s') : s.planner.lastSeq ≤ s'.planner.lastSeq := by
  induction turns with
  | refl => exact Nat.le_refl _
  | tail _ turn ih => exact Nat.le_trans ih turn.lastSeq_le

/-- One operation has gone on from `x` to `y`, and the planner from `s` to `q`. -/
theorem Remembered.replace {q : Planner} {store : σ} {trace : List (Moment σ)}
    {before after : List Position} {x y : Position} (held : Remembered n s)
    (here : s.running = before ++ x :: after)
    (marked : s.planner.stale = true → q.stale = true ∨ y.reloads n = true)
    (reloads : x.reloads n = true → q.stale = true ∨ y.reloads n = true) :
    Remembered n ⟨q, store, before ++ y :: after, trace⟩ := by
  have pay : q.stale = true ∨ y.reloads n = true →
      Remembered n ⟨q, store, before ++ y :: after, trace⟩ :=
    .imp_right fun reloads => ⟨y, mem_middle.mpr (.inl rfl), reloads⟩
  rcases held with stale | ⟨z, member, fetches⟩
  · exact pay (marked stale)
  · rw [here] at member
    rcases mem_middle.mp member with rfl | other
    · exact pay (reloads fetches)
    · exact .inr ⟨z, mem_middle.mpr (.inr other), fetches⟩

/-- A dropped answer stays remembered in a step, unless a later plan is applied or a load fails. -/
theorem Turn.remembered (turn : Turn Serves s s') (le : n ≤ s.planner.lastSeq)
    (held : Remembered n s) :
    Remembered n s' ∨ (∃ w, n < w ∧ s'.trace = .landed w (.ok .applied) :: s.trace) ∨
      ReloadFails n s s' := by
  cases turn with
  | setActive courseId q set =>
    obtain ⟨-, rfl⟩ := Planner.setActive_eq_ok_iff.mp set
    exact .inl held
  | step step =>
    cases step with
    | start op =>
      refine .inl (held.imp ?_ ?_)
      · exact fun marked => (starts_start s.planner op).keeps.1.trans marked
      · rintro ⟨x, member, fetches⟩
        exact ⟨x, List.mem_cons_of_mem _ member, fetches⟩
    | serve call stage before after reply store here served =>
      exact .inl (held.replace here .inl .inr)
    | advance before x after here =>
      by_cases reloads : x.reloads n = true
      · rcases x.reloads_advance (σ := σ) le reloads with
          marked | goes_on | ⟨w, later, lands⟩ | ⟨result, ticket, e, rfl, later, ends⟩
        · exact .inl (.inl marked)
        · exact .inl (held.replace here (fun _ => .inr goes_on) fun _ => .inr goes_on)
        · refine .inr (.inl ⟨w, later, ?_⟩)
          simp only [lands, List.singleton_append]
        · refine .inr (.inr ⟨before, after, result, ticket, e, here, later, ?_⟩)
          simp only [ends]
      · exact .inl (held.replace here (fun marked => x.marked_advance marked)
          fun fetches => absurd fetches reloads)

theorem Position.stale_of_dropped {p : Planner} {seq : Nat} {x : Position}
    (dropped : (x.advance σ p).2.2 = [.landed seq (.ok .superseded)]) :
    (x.advance σ p).1.stale = true := by
  have landed : ∀ request reply,
      ([.landed request.ticket.seq (p.answer request reply).1] : List (Moment σ)) =
        [.landed seq (.ok .superseded)] → (p.answer request reply).2.stale = true := by
    intro request reply same
    exact stale_of_superseded (Moment.landed.inj (List.head_eq_of_cons_eq same)).2
  cases x with
  | calling call stage => cases dropped
  | settling result => cases dropped
  | reloading result => cases dropped
  | finished result => cases dropped
  | answered stage reply =>
    cases stage with
    | adopt ticket summary => exact landed (.plain ticket) reply dropped
    | adoptSelection pending => exact landed (.selection pending) reply dropped
    | reload result ticket => exact landed (.plain ticket) reply dropped
    | refetch ticket =>
      cases reply with
      | ok done => cases dropped
      | error e => exact landed (.plain ticket) (.error e) dropped
    | collect => cases reply <;> cases dropped

/-- The step that drops an answer leaves the mark. -/
theorem Turn.stale_of_dropped {seq : Nat} (turn : Turn Serves s s')
    (dropped : s'.trace = .landed seq (.ok .superseded) :: s.trace) : s'.planner.stale = true := by
  have longer : s.trace ≠ .landed seq (.ok .superseded) :: s.trace :=
    (List.cons_ne_self _ _).symm
  cases turn with
  | setActive courseId q set => exact absurd dropped longer
  | step step =>
    cases step with
    | start op => exact absurd dropped longer
    | serve call stage before after reply store here served => cases dropped
    | advance before x after here =>
      have only : (x.advance σ s.planner).2.2 = [.landed seq (.ok .superseded)] :=
        List.append_cancel_right dropped
      exact Position.stale_of_dropped only

/-! ## Whole runs -/

/-- A plan that was requested after the ticket `n` has been applied since the state `s`. -/
def AppliedSince (n : Nat) (s s' : State σ) : Prop :=
  ∃ newer w, s'.trace = newer ++ s.trace ∧ n < w ∧ .landed w (.ok .applied) ∈ newer

theorem AppliedSince.turn {s'' : State σ} (applied : AppliedSince n s s')
    (turn : Turn Serves s' s'') : AppliedSince n s s'' := by
  obtain ⟨newer, w, split, later, member⟩ := applied
  obtain ⟨newest, grown⟩ := turn.trace_suffix
  refine ⟨newest ++ newer, w, ?_, later, List.mem_append_right _ member⟩
  rw [← grown, split, List.append_assoc]

theorem Turns.trace_suffix (turns : Turns Serves s s') : s.trace <:+ s'.trace := by
  induction turns with
  | refl => exact List.suffix_refl _
  | tail _ turn ih => exact ih.trans turn.trace_suffix

/-- From the moment a successful answer is dropped until a plan that was requested after it is
applied, the held plan is marked as stale or an operation that has taken the mark reloads, unless
such a load has failed on the way and left neither. -/
theorem dropped_answer_remembered {s₀ : State σ} {seq : Nat} (drop : Turn Serves s₀ s)
    (dropped : s.trace = .landed seq (.ok .superseded) :: s₀.trace) (turns : Turns Serves s s') :
    Remembered s.planner.lastSeq s' ∨ AppliedSince s.planner.lastSeq s s' ∨
      ∃ a b, Turns Serves s a ∧ Turn Serves a b ∧ ReloadFails s.planner.lastSeq a b ∧
        ¬Remembered s.planner.lastSeq b ∧ Turns Serves b s' := by
  induction turns with
  | refl => exact .inl (.inl (drop.stale_of_dropped dropped))
  | @tail a b turns turn ih =>
    rcases ih with held | applied | ⟨c, d, to_c, fails, failed, lost, to_a⟩
    · rcases turn.remembered (Turns.lastSeq_le turns) held with still | ⟨w, later, lands⟩ | failed
      · exact .inl still
      · obtain ⟨newer, grown⟩ := Turns.trace_suffix turns
        refine .inr (.inl ⟨.landed w (.ok .applied) :: newer, w, ?_, later, List.mem_cons_self⟩)
        rw [lands, ← grown, List.cons_append]
      · by_cases still : Remembered s.planner.lastSeq b
        · exact .inl still
        · exact .inr (.inr ⟨a, b, turns, turn, failed, still, .refl⟩)
    · exact .inr (.inl (applied.turn turn))
    · exact .inr (.inr ⟨c, d, to_c, fails, failed, lost, to_a.tail turn⟩)

end Remembering

/-! ## A run -/

/-- A planner that has loaded nothing, before any operation. -/
def State.fresh {σ : Type} (store : σ) : State σ := ⟨.new, store, [], []⟩

/-- A store in memory any of whose calls may fail. A call that fails leaves it as it was. -/
def MayFail : Serving Store.Memory := fun _ call m reply m' =>
  m.serve call = (reply, m') ∨ (∃ e, reply = .error e) ∧ m' = m

theorem not_remembered_of_finished {σ : Type} {s : State σ} (finished : s.Finished)
    (unmarked : s.planner.stale = false) (n : Nat) : ¬Remembered n s := by
  rintro (marked | ⟨x, member, fetches⟩)
  · rw [unmarked] at marked
    cases marked
  · cases x with
    | finished result => cases fetches
    | calling | answered | settling | reloading => cases finished _ member

/-- A refresh of a course is served before a selection change and lands before it too, so the change
is dropped. Its operation takes the mark, and the load fails. The refresh then ends with success,
and the held plan does not have the change. -/
theorem run_forgotten :
    ∃ s₀ s s', Turns MayFail (.fresh (.ofSeed shelf)) s₀ ∧ Turn MayFail s₀ s ∧
      s.trace = .landed 2 (.ok .superseded) :: s₀.trace ∧ Turns MayFail s s' ∧
      s'.trace = [.landed 4 (.error (.store (.rejected 503 ""))),
        .served (some 4) .plan s.store] ++ s.trace ∧
      s'.Finished ∧ s'.planner.stale = false ∧
      s'.planner.plan ≠ .ofRecord s'.store.snapshot := by
  have run : Turns MayFail (.fresh (.ofSeed shelf)) _ := .refl
  have run := run.tail (.step (.start (.load none)))
  have run := run.tail (.step (.serve (.fetchPlan none) (.adopt ⟨.plan, 1, none⟩ none) [] [] _ _ rfl
    (.inl rfl)))
  have run := run.tail (.step (.advance [] _ [] rfl))
  have run := run.tail (.step (.advance [] _ [] rfl))
  have run := run.tail (.step (.start (.select 1 "L" (some 11))))
  have run := run.tail (.step (.start (.refreshCourse 1 false)))
  have run := run.tail (.step (.serve (.refreshSections 1 false)
    (.adopt ⟨.course 1, 3, some "202620"⟩ none) [] [_, _] _ _ rfl (.inl rfl)))
  have run := run.tail (.step (.serve (.selectSections 1 [11])
    (.adoptSelection ⟨⟨.selection 1 "L", 2, some "202620"⟩, 1, "L", [11]⟩) [_] [_] _ _ rfl
    (.inl rfl)))
  have run := run.tail (.step (.advance [] _ [_, _] rfl))
  exact ⟨_, _, _, run, .step (.advance [_] _ [_] rfl), rfl,
    .head (.step (.advance [_] _ [_] rfl)) <| .head (.step (.advance [_] _ [_] rfl)) <|
      .head (.step (.serve (.fetchPlan (some "202620"))
        (.reload (.outcome .superseded) ⟨.plan, 4, some "202620"⟩) [_] [_]
        (.error (.rejected 503 "")) _ rfl (.inr ⟨⟨_, rfl⟩, rfl⟩))) <|
      .head (.step (.advance [_] _ [_] rfl)) <| .head (.step (.advance [] _ [_, _] rfl)) .refl,
    rfl, by decide, by decide, by decide⟩

theorem not_appliedSince {σ : Type} {n : Nat} {s s' : State σ} {newer : List (Moment σ)}
    (grown : s'.trace = newer ++ s.trace)
    (none_applied : ∀ w, .landed w (.ok .applied) ∉ newer) : ¬AppliedSince n s s' := by
  rintro ⟨newer', w, split, -, member⟩
  rw [List.append_cancel_right (split.symm.trans grown)] at member
  exact none_applied w member

theorem dropped_answer_remembered_failed_load :
    ∃ s₀ s s', Turn MayFail s₀ s ∧ s.trace = .landed 2 (.ok .superseded) :: s₀.trace ∧
      Turns MayFail s s' ∧ ¬AppliedSince s.planner.lastSeq s s' ∧
      ∃ a b, Turns MayFail s a ∧ ReloadFails s.planner.lastSeq a b ∧ Turns MayFail b s' := by
  obtain ⟨s₀, s, s', -, drop, dropped, turns, grown, finished, unmarked, -⟩ := run_forgotten
  have unapplied : ¬AppliedSince s.planner.lastSeq s s' := not_appliedSince grown (by simp)
  refine ⟨s₀, s, s', drop, dropped, turns, unapplied, ?_⟩
  rcases dropped_answer_remembered drop dropped turns with held | applied | lost
  · exact absurd held (not_remembered_of_finished finished unmarked _)
  · exact absurd applied unapplied
  · obtain ⟨a, b, to_a, -, failed, -, to_end⟩ := lost
    exact ⟨a, b, to_a, failed, to_end⟩

/-- A dropped answer can be forgotten: every operation has ended, nothing marks the held plan, and
no plan that was requested after the drop has been applied. -/
theorem dropped_answer_forgotten :
    ¬∀ (seed : Store.Seed) (s₀ s s' : State Store.Memory) (seq : Nat),
      Turns MayFail (.fresh (.ofSeed seed)) s₀ → Turn MayFail s₀ s →
      s.trace = .landed seq (.ok .superseded) :: s₀.trace → Turns MayFail s s' →
      Remembered 0 s' ∨ AppliedSince s.planner.lastSeq s s' := by
  intro remembered
  obtain ⟨s₀, s, s', run, drop, dropped, turns, grown, finished, unmarked, -⟩ := run_forgotten
  rcases remembered shelf s₀ s s' 2 run drop dropped turns with held | applied
  · exact not_remembered_of_finished finished unmarked 0 held
  · exact not_appliedSince grown (by simp) applied

end Service

end Timetable
