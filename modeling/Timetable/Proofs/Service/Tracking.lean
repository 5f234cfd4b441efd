import Timetable.Proofs.Service.Interleaving
import Timetable.Proofs.Store.Answers

/-!
# What the planner holds while operations run

Operations run side by side over a store in memory, and no call fails. `Tracked` is the invariant of
their runs: the held plan is the answer to the ticket whose number the planner remembers, every
ticket has at most one plan as its answer (`AnsweredWith`), and no two operations share a number.

For the call that the store served last one of three things holds (`Accounted`): the held plan is
marked as stale, or an operation is still to fetch a plan or to bring the answer to that call, or
the answer is settled. Settled is the weak case: the answer was applied, but one that the store had
given earlier may have been applied over it when its number is greater. A number says when a request
was made, not when the store served it.
-/

namespace Timetable.Service

/-- The store in memory serves a call that does not fail. -/
def Succeeds : Serving Store.Memory := fun _ call m reply m' =>
  m.serve call = (reply, m') ∧ ∃ answer, reply = .ok answer

/-- A call for a plan is answered with the plan that the store holds after it. -/
theorem Succeeds.snapshot {call : Store.Call .plan} {m m' : Store.Memory}
    {reply : Store.Reply .plan} (served : Succeeds .plan call m reply m') :
    reply = .ok m'.snapshot := by
  obtain ⟨served, r, rfl⟩ := served
  have held := Store.Memory.serve_ok (congrArg Prod.fst served)
  rw [served] at held
  rw [held]

/-! ## Answers in a trace -/

section Answers

variable {trace : List (Moment Store.Memory)} {e : Moment Store.Memory} {w : Nat} {r : PlanRecord}

/-- No plan was given for a ticket. -/
def Unanswered (trace : List (Moment Store.Memory)) (w : Nat) : Prop :=
  ∀ m, .served (some w) .plan m ∉ trace

/-- The plan that was given for a ticket, and the only one. -/
def AnsweredWith (trace : List (Moment Store.Memory)) (w : Nat) (r : PlanRecord) : Prop :=
  (∃ m, .served (some w) .plan m ∈ trace) ∧ ∀ m, .served (some w) .plan m ∈ trace → m.snapshot = r

theorem Unanswered.cons (none_given : Unanswered trace w)
    (other : ∀ m, e ≠ .served (some w) .plan m) : Unanswered (e :: trace) w := by
  intro m member
  rcases List.mem_cons.mp member with same | earlier
  · exact other m same.symm
  · exact none_given m earlier

theorem AnsweredWith.cons (given : AnsweredWith trace w r)
    (other : ∀ m, e ≠ .served (some w) .plan m) : AnsweredWith (e :: trace) w r := by
  obtain ⟨⟨m, member⟩, only⟩ := given
  refine ⟨⟨m, List.mem_cons_of_mem e member⟩, fun m' member' => ?_⟩
  rcases List.mem_cons.mp member' with same | earlier
  · exact absurd same.symm (other m')
  · exact only m' earlier

theorem Unanswered.answer (none_given : Unanswered trace w) (m : Store.Memory) :
    AnsweredWith (.served (some w) .plan m :: trace) w m.snapshot := by
  refine ⟨⟨m, List.mem_cons_self⟩, fun m' member => ?_⟩
  rcases List.mem_cons.mp member with same | earlier
  · cases same; rfl
  · exact absurd earlier (none_given m')

end Answers

/-! ## The invariant -/

namespace Position

/-- An operation is still to fetch a plan. -/
def Owes : Position → Prop
  | calling .. => True
  | @answered .plan _ _ => False
  | answered .. => True
  | settling _ => False
  | reloading _ => True
  | finished _ => False

/-- An operation brings the plan that was given for a ticket. -/
def Carries (w : Nat) : Position → Prop
  | @answered .plan stage _ => stage.request.ticket.seq = w
  | _ => False

theorem not_owes_of_hasEnded (x : Position) (ended : x.hasEnded = true) : ¬x.Owes := by
  cases x with
  | finished result => exact id
  | calling | answered | settling | reloading => cases ended

theorem not_carries_of_hasEnded (x : Position) (ended : x.hasEnded = true) (w : Nat) :
    ¬x.Carries w := by
  cases x with
  | finished result => exact id
  | calling | answered | settling | reloading => cases ended

/-- The answers to an operation are those in the trace, and none is a failure. -/
inductive Sound (trace : List (Moment Store.Memory)) : Position → Prop
  | calling {k : Store.Kind} {call : Store.Call k} {stage : Stage k} :
    (∀ ticket, stage.ticket? = some ticket → Unanswered trace ticket.seq) →
    Sound trace (.calling call stage)
  | answered {stage : Stage .plan} {r : PlanRecord} :
    AnsweredWith trace stage.request.ticket.seq r → Sound trace (.answered stage (.ok r))
  | removed {ticket : Ticket} :
    Unanswered trace ticket.seq → Sound trace (.answered (.refetch ticket) (.ok ()))
  | built {summary : BuildSummary} : Sound trace (.answered .collect (.ok summary))
  | settling {result : Success} : Sound trace (.settling result)
  | reloading {result : Success} : Sound trace (.reloading result)
  | finished {result : Except PlannerError Success} : Sound trace (.finished result)

end Position

theorem ticket?_eq_request (stage : Stage .plan) : stage.ticket? = some stage.request.ticket := by
  cases stage <;> rfl

/-- A completion of a ticket with success ends the operation or lets it settle. -/
theorem completed_ok (stage : Stage .plan) (outcome : Outcome) :
    (∃ result, Position.completed stage (.ok outcome) = .settling result) ∨
      ∃ result, Position.completed stage (.ok outcome) = .finished result := by
  cases stage with
  | adopt ticket summary => cases summary <;> exact .inl ⟨_, rfl⟩
  | adoptSelection pending => exact .inl ⟨_, rfl⟩
  | reload result ticket => exact .inr ⟨_, rfl⟩

/-- What is new in the trace does not touch an operation when it answers another ticket. -/
theorem Position.Sound.cons {trace : List (Moment Store.Memory)} {x : Position}
    {e : Moment Store.Memory} (sound : x.Sound trace)
    (other : ∀ w, x.seq? = some w → ∀ m, e ≠ .served (some w) .plan m) : x.Sound (e :: trace) := by
  cases sound with
  | @calling k call stage unanswered =>
    refine .calling fun ticket has => (unanswered ticket has).cons (other _ ?_)
    simp only [seq?, has, Option.map_some]
  | @answered stage r given =>
    refine .answered (given.cons (other _ ?_))
    simp only [seq?, ticket?_eq_request, Option.map_some]
  | removed unanswered => exact .removed (unanswered.cons (other _ rfl))
  | built => exact .built
  | settling => exact .settling
  | reloading => exact .reloading
  | finished => exact .finished

/-- The call that the store served last, with what came after it and before it. -/
structure LastServed (trace : List (Moment Store.Memory)) (m : Store.Memory)
    (newer : List (Moment Store.Memory)) (seq : Option Nat) (kind : Store.Kind)
    (older : List (Moment Store.Memory)) : Prop where
  split : trace = newer ++ .served seq kind m :: older
  none_newer : ∀ e ∈ newer, ¬e.IsServed

/-- The answer to a ticket was applied, and what has been applied over it was given earlier, though
its number is greater. -/
def Settled (newer : List (Moment Store.Memory)) (w : Nat) (older : List (Moment Store.Memory))
    (held : Nat) : Prop :=
  .landed w (.ok .applied) ∈ newer ∧
    (w = held ∨ w < held ∧
      [.landed held (.ok .applied), .landed w (.ok .applied)].Sublist newer ∧
      ∃ m, .served (some held) .plan m ∈ older)

/-- What became of the call that the store served last: the held plan is marked as stale, or an
operation is still to fetch a plan or brings this one, or its answer is settled. -/
def Accounted (s : State Store.Memory) : Prop :=
  ∃ newer seq kind older, LastServed s.trace s.store newer seq kind older ∧
    (s.planner.stale = true ∨ (∃ x ∈ s.running, x.Owes) ∨
      ∃ w, seq = some w ∧ kind = .plan ∧
        ((∃ x ∈ s.running, x.Carries w) ∨ Settled newer w older s.planner.appliedSeq))

/-- The number of the held plan and those of the tickets that are still to be completed. -/
def numbers (held : Nat) (running : List Position) : List Nat :=
  held :: running.filterMap Position.seq?

/-- The held plan and the running operations agree with the trace. -/
structure Tracked (s : State Store.Memory) : Prop where
  loaded : s.planner.appliedSeq ≠ 0
  bounded : ∀ w ∈ numbers s.planner.appliedSeq s.running, w ≤ s.planner.lastSeq
  distinct : (numbers s.planner.appliedSeq s.running).Nodup
  given : ∀ w m, .served (some w) .plan m ∈ s.trace → w ≤ s.planner.lastSeq
  sound : ∀ x ∈ s.running, x.Sound s.trace
  held : ∃ r, AnsweredWith s.trace s.planner.appliedSeq r ∧ s.planner.plan = .ofRecord r
  accounted : Accounted s

variable {p q : Planner} {m : Store.Memory} {before after : List Position} {x y : Position}
  {trace : List (Moment Store.Memory)}

theorem mem_middle {z : Position} :
    z ∈ before ++ x :: after ↔ z = x ∨ z ∈ before ++ after := by
  rw [List.perm_middle.mem_iff, List.mem_cons]

/-! ## Numbers -/

/-- The numbers with one operation singled out. -/
theorem numbers_perm (held : Nat) (before : List Position) (x : Position) (after : List Position) :
    (numbers held (before ++ x :: after)).Perm
      (x.seq?.toList ++ numbers held (before ++ after)) := by
  have apart : ((before ++ x :: after).filterMap Position.seq?).Perm
      ((x :: (before ++ after)).filterMap Position.seq?) := List.perm_middle.filterMap Position.seq?
  cases numbered : x.seq? with
  | none =>
    rw [List.filterMap_cons_none numbered] at apart
    exact apart.cons held
  | some w =>
    rw [List.filterMap_cons_some numbered] at apart
    exact (apart.cons held).trans (.swap w held _)

theorem numbers_perm_of_none (held : Nat) (before after : List Position)
    (unnumbered : x.seq? = none) :
    (numbers held (before ++ x :: after)).Perm (numbers held (before ++ after)) := by
  have perm := numbers_perm held before x after
  rw [unnumbered] at perm
  exact perm

theorem numbers_perm_of_some {w : Nat} (held : Nat) (before after : List Position)
    (numbered : x.seq? = some w) :
    (numbers held (before ++ x :: after)).Perm (w :: numbers held (before ++ after)) := by
  have perm := numbers_perm held before x after
  rw [numbered] at perm
  exact perm

/-- An operation that keeps its ticket keeps the numbers. -/
theorem numbers_congr {held : Nat} (same : y.seq? = x.seq?) :
    numbers held (before ++ y :: after) = numbers held (before ++ x :: after) := by
  simp only [numbers, List.filterMap_append, List.filterMap_cons, same]

/-- The number of the held plan is the one from before or that of the answer that has landed. -/
theorem Lands.numbers_sublist {ticket : Ticket} {r : PlanRecord}
    {result : Except PlannerError Outcome} (lands : Lands p ticket r q result)
    (running : List Position) :
    (numbers q.appliedSeq running).Sublist (ticket.seq :: numbers p.appliedSeq running) := by
  unfold numbers
  cases lands with
  | applied _ _ appliedSeq _ _ =>
    rw [appliedSeq]
    exact (List.sublist_cons_self _ _).cons_cons _
  | superseded _ appliedSeq _ _ =>
    rw [appliedSeq]
    exact List.sublist_cons_self _ _

/-! ## The last call -/

theorem LastServed.append {newer older : List (Moment Store.Memory)} {seq : Option Nat}
    {kind : Store.Kind} (last : LastServed trace m newer seq kind older)
    {ms : List (Moment Store.Memory)} (unserved : ∀ e ∈ ms, ¬e.IsServed) :
    LastServed (ms ++ trace) m (ms ++ newer) seq kind older where
  split := by rw [last.split, List.append_assoc]
  none_newer := List.forall_mem_append.mpr ⟨unserved, last.none_newer⟩

/-- An answer that was given for another ticket was given before the last call. -/
theorem LastServed.mem_older {newer older : List (Moment Store.Memory)} {w t : Nat}
    (last : LastServed trace m newer (some w) .plan older) {m' : Store.Memory}
    (given : .served (some t) .plan m' ∈ trace) (other : w ≠ t) :
    .served (some t) .plan m' ∈ older := by
  rw [last.split] at given
  rcases List.mem_append.mp given with among | here
  · exact absurd trivial (last.none_newer _ among)
  · rcases List.mem_cons.mp here with same | earlier
    · exact absurd (Option.some.inj (Moment.served.inj same).1).symm other
    · exact earlier

/-- When an answer is applied, the last call is settled if it was settled before or if this is its
answer. -/
theorem LastServed.settled {newer older : List (Moment Store.Memory)} {h w t : Nat}
    (last : LastServed trace m newer (some w) .plan older)
    (given : ∃ m', .served (some t) .plan m' ∈ trace) (newer_seq : h < t)
    (answered : t = w ∨ Settled newer w older h) :
    Settled (.landed t (.ok .applied) :: newer) w older t := by
  rcases answered with rfl | ⟨landed, before_held⟩
  · exact ⟨List.mem_cons_self, .inl rfl⟩
  -- Whatever was applied so far is older than this answer, and so is the ticket of the last call.
  · have le : w ≤ h := by
      rcases before_held with rfl | ⟨lt, -⟩
      · exact Nat.le_refl _
      · exact Nat.le_of_lt lt
    have lt : w < t := Nat.lt_of_le_of_lt le newer_seq
    obtain ⟨m', member⟩ := given
    have order := (List.singleton_sublist.mpr landed).cons_cons (.landed t (.ok .applied))
    have earlier := last.mem_older member (Nat.ne_of_lt lt)
    exact ⟨List.mem_cons_of_mem _ landed, .inr ⟨lt, order, m', earlier⟩⟩

/-- A step at the planner accounts for the last call when it pays what it owes: with the mark, with
a fetch to come, or by settling the answer. -/
theorem Accounted.replace (ms : List (Moment Store.Memory))
    (held : Accounted ⟨p, m, before ++ x :: after, trace⟩) (unserved : ∀ e ∈ ms, ¬e.IsServed)
    (stale : p.stale = true → q.stale = true ∨ y.Owes) (owes : x.Owes → q.stale = true ∨ y.Owes)
    (settled : ∀ newer w older, LastServed trace m newer (some w) .plan older →
      x.Carries w ∨ Settled newer w older p.appliedSeq →
      (q.stale = true ∨ y.Owes) ∨ Settled (ms ++ newer) w older q.appliedSeq) :
    Accounted ⟨q, m, before ++ y :: after, ms ++ trace⟩ := by
  obtain ⟨newer, seq, kind, older, last, fate⟩ := held
  refine ⟨ms ++ newer, seq, kind, older, last.append unserved, ?_⟩
  have pay : q.stale = true ∨ y.Owes → q.stale = true ∨ ∃ z ∈ before ++ y :: after, z.Owes :=
    .imp_right fun fetches => ⟨y, mem_middle.mpr (.inl rfl), fetches⟩
  have settle : ∀ w, seq = some w → kind = .plan →
      x.Carries w ∨ Settled newer w older p.appliedSeq →
      (q.stale = true ∨ y.Owes) ∨ Settled (ms ++ newer) w older q.appliedSeq := by
    rintro w rfl rfl answered
    exact settled newer w older last answered
  rcases fate with marked | ⟨z, member, fetches⟩ | ⟨w, numbered, plan, ⟨z, member, carries⟩ | done⟩
  · exact (pay (stale marked)).imp_right .inl
  · rcases mem_middle.mp member with rfl | other
    · exact (pay (owes fetches)).imp_right .inl
    · exact .inr (.inl ⟨z, mem_middle.mpr (.inr other), fetches⟩)
  · rcases mem_middle.mp member with rfl | other
    · rcases settle w numbered plan (.inl carries) with paid | done
      · exact (pay paid).imp_right .inl
      · exact .inr (.inr ⟨w, numbered, plan, .inr done⟩)
    · exact .inr (.inr ⟨w, numbered, plan, .inl ⟨z, mem_middle.mpr (.inr other), carries⟩⟩)
  · rcases settle w numbered plan (.inr done) with paid | done
    · exact (pay paid).imp_right .inl
    · exact .inr (.inr ⟨w, numbered, plan, .inr done⟩)

/-! ## What a step keeps -/

namespace Tracked

/-- No plan was given for the next ticket. -/
theorem unanswered_next {s : State Store.Memory} (held : Tracked s) :
    Unanswered s.trace (s.planner.lastSeq + 1) := fun m member =>
  absurd (held.given _ m member) (Nat.not_succ_le_self _)

/-- An operation has a number of its own. -/
theorem apart {w : Nat} (held : Tracked ⟨p, m, before ++ x :: after, trace⟩)
    (numbered : x.seq? = some w) : w ∉ numbers p.appliedSeq (before ++ after) := by
  have distinct := (numbers_perm_of_some _ _ _ numbered).nodup_iff.mp held.distinct
  exact (List.nodup_cons.mp distinct).1

/-- The other operations are not touched by what is no answer. -/
theorem sound_landed {seq : Nat} {result : Except PlannerError Outcome}
    (held : Tracked ⟨p, m, before ++ x :: after, trace⟩) :
    ∀ z ∈ before ++ after, z.Sound (.landed seq result :: trace) := fun z member =>
  (held.sound z (mem_middle.mpr (.inr member))).cons nofun

/-- An operation goes on without a new ticket, and the planner holds what it held. -/
theorem move (held : Tracked ⟨p, m, before ++ x :: after, trace⟩) (plan : q.plan = p.plan)
    (appliedSeq : q.appliedSeq = p.appliedSeq) (lastSeq : q.lastSeq = p.lastSeq)
    (numbered : y.seq? = x.seq?) (sound : y.Sound trace) (idle : ∀ w, ¬x.Carries w)
    (stale : p.stale = true → q.stale = true ∨ y.Owes) (owes : x.Owes → q.stale = true ∨ y.Owes) :
    Tracked ⟨q, m, before ++ y :: after, trace⟩ := by
  have same : numbers q.appliedSeq (before ++ y :: after) =
      numbers p.appliedSeq (before ++ x :: after) := by
    rw [appliedSeq, numbers_congr numbered]
  constructor
  case loaded => exact appliedSeq ▸ held.loaded
  case bounded => rw [same]; exact lastSeq ▸ held.bounded
  case distinct => exact same ▸ held.distinct
  case given => exact lastSeq ▸ held.given
  case sound =>
    intro z member
    rcases mem_middle.mp member with rfl | other
    · exact sound
    · exact held.sound z (mem_middle.mpr (.inr other))
  case held => exact appliedSeq ▸ plan ▸ held.held
  case accounted =>
    refine held.accounted.replace [] nofun stale owes fun newer w older _ answered => ?_
    rw [appliedSeq]
    exact .inr (answered.resolve_left (idle w))

/-- An operation without a ticket gets the next one and calls the store. -/
theorem ask {k : Store.Kind} {call : Store.Call k} {stage : Stage k} {ticket : Ticket}
    (held : Tracked ⟨p, m, before ++ x :: after, trace⟩) (unnumbered : x.seq? = none)
    (issues : Issues p q) (next : ticket.seq = p.lastSeq + 1) (has : stage.ticket? = some ticket) :
    Tracked ⟨q, m, before ++ .calling call stage :: after, trace⟩ := by
  have numbered : (Position.calling call stage).seq? = some (p.lastSeq + 1) := by
    simp only [Position.seq?, has, Option.map_some, next]
  have perm : (numbers q.appliedSeq (before ++ .calling call stage :: after)).Perm
      ((p.lastSeq + 1) :: numbers p.appliedSeq (before ++ x :: after)) := by
    rw [issues.appliedSeq]
    have rest := numbers_perm_of_none p.appliedSeq before after unnumbered
    exact (numbers_perm_of_some _ _ _ numbered).trans (rest.symm.cons _)
  constructor
  case loaded => exact issues.appliedSeq ▸ held.loaded
  case bounded =>
    intro w member
    show w ≤ q.lastSeq
    rw [issues.lastSeq]
    rcases List.mem_cons.mp (perm.mem_iff.mp member) with rfl | earlier
    · exact Nat.le_refl _
    · exact Nat.le_succ_of_le (held.bounded w earlier)
  case distinct =>
    refine perm.nodup_iff.mpr (List.nodup_cons.mpr ⟨fun member => ?_, held.distinct⟩)
    exact Nat.not_succ_le_self _ (held.bounded _ member)
  case given =>
    intro w m' member
    show w ≤ q.lastSeq
    rw [issues.lastSeq]
    exact Nat.le_succ_of_le (held.given w m' member)
  case sound =>
    intro z member
    rcases mem_middle.mp member with rfl | other
    · refine .calling fun ticket' has' => ?_
      rw [has] at has'
      cases has'
      exact next ▸ held.unanswered_next
    · exact held.sound z (mem_middle.mpr (.inr other))
  case held => exact issues.appliedSeq ▸ issues.plan ▸ held.held
  case accounted =>
    exact held.accounted.replace [] nofun (fun _ => .inr trivial) (fun _ => .inr trivial)
      fun _ _ _ _ _ => .inl (.inr trivial)

/-- The plan that an operation brings is the one that was given for its ticket. -/
theorem given_of_answered {stage : Stage .plan} {r : PlanRecord}
    (held : Tracked ⟨p, m, before ++ .answered stage (.ok r) :: after, trace⟩) :
    AnsweredWith trace stage.request.ticket.seq r := by
  cases held.sound _ (mem_middle.mpr (.inl rfl)) with
  | answered given => exact given

/-- The answer to a ticket lands, and the operation has no ticket any more. -/
theorem land {stage : Stage .plan} {r : PlanRecord} {result : Except PlannerError Outcome}
    (held : Tracked ⟨p, m, before ++ .answered stage (.ok r) :: after, trace⟩)
    (lands : Lands p stage.request.ticket r q result) (completed : y.seq? = none)
    (sound : ∀ trace, y.Sound trace) :
    Tracked ⟨q, m, before ++ y :: after, .landed stage.request.ticket.seq result :: trace⟩ := by
  have numbered : (Position.answered stage (.ok r)).seq? = some stage.request.ticket.seq := by
    simp only [Position.seq?, ticket?_eq_request, Option.map_some]
  have perm := numbers_perm_of_some p.appliedSeq before after numbered
  have left := numbers_perm_of_none q.appliedSeq before after completed
  -- Of the ticket's number and that of the plan that was held, one goes.
  have part := lands.numbers_sublist (before ++ after)
  have given := held.given_of_answered
  constructor
  case loaded =>
    show q.appliedSeq ≠ 0
    cases lands with
    | applied newer _ appliedSeq _ _ => rw [appliedSeq]; exact Nat.ne_zero_of_lt newer
    | superseded _ appliedSeq _ _ => rw [appliedSeq]; exact held.loaded
  case bounded =>
    intro w member
    exact lands.lastSeq ▸ held.bounded w (perm.mem_iff.mpr (part.subset (left.mem_iff.mp member)))
  case distinct => exact left.nodup_iff.mpr ((perm.nodup_iff.mp held.distinct).sublist part)
  case given =>
    intro w m' member
    rcases List.mem_cons.mp member with same | earlier
    · cases same
    · exact lands.lastSeq ▸ held.given w m' earlier
  case sound =>
    intro z member
    rcases mem_middle.mp member with rfl | other
    · exact sound _
    · exact held.sound_landed z other
  case held =>
    show ∃ r, AnsweredWith _ q.appliedSeq r ∧ q.plan = .ofRecord r
    cases lands with
    | applied _ plan appliedSeq _ _ => rw [appliedSeq]; exact ⟨r, given.cons nofun, plan⟩
    | superseded plan appliedSeq _ _ =>
      obtain ⟨r', holds, same⟩ := held.held
      rw [appliedSeq]
      exact ⟨r', holds.cons nofun, plan.trans same⟩
  case accounted =>
    refine held.accounted.replace [.landed _ result] (by simp [Moment.IsServed]) ?_ nofun ?_
    · intro marked
      cases lands with
      | applied _ _ _ _ stale => exact .inl (stale.trans marked)
      | superseded _ _ _ stale => exact .inl stale
    · intro newer w older last answered
      cases lands with
      | superseded _ _ _ stale => exact .inl (.inl stale)
      | applied newer_seq _ appliedSeq _ _ =>
        rw [appliedSeq]
        exact .inr (last.settled given.1 newer_seq answered)

/-- The store serves a call. -/
theorem serve {m' : Store.Memory} {k : Store.Kind} {call : Store.Call k} {stage : Stage k}
    {reply : Store.Reply k} (held : Tracked ⟨p, m, before ++ .calling call stage :: after, trace⟩)
    (served : Succeeds k call m reply m') :
    Tracked ⟨p, m', before ++ .answered stage reply :: after,
      .served (stage.ticket?.map Ticket.seq) k m' :: trace⟩ := by
  have same : numbers p.appliedSeq (before ++ .answered stage reply :: after) =
      numbers p.appliedSeq (before ++ .calling call stage :: after) := numbers_congr rfl
  have unanswered : ∀ ticket, stage.ticket? = some ticket → Unanswered trace ticket.seq := by
    cases held.sound _ (mem_middle.mpr (.inl rfl)) with
    | calling unanswered => exact unanswered
  -- The answer is to a ticket that nothing else has a part in.
  have other : ∀ w ∈ numbers p.appliedSeq (before ++ after), ∀ m'',
      Moment.served (stage.ticket?.map Ticket.seq) k m' ≠ .served (some w) .plan m'' := by
    intro w member m'' same
    exact held.apart (x := .calling call stage) (Moment.served.inj same).1 member
  constructor
  case loaded => exact held.loaded
  case bounded => rw [same]; exact held.bounded
  case distinct => rw [same]; exact held.distinct
  case given =>
    intro w m'' member
    rcases List.mem_cons.mp member with same | earlier
    · have numbered : (Position.calling call stage).seq? = some w := (Moment.served.inj same).1.symm
      exact held.bounded w ((numbers_perm_of_some _ _ _ numbered).mem_iff.mpr List.mem_cons_self)
    · exact held.given w m'' earlier
  case sound =>
    intro z member
    rcases mem_middle.mp member with rfl | among
    · obtain ⟨answer, rfl⟩ := served.2
      cases stage with
      | adopt ticket summary =>
        cases served.snapshot
        exact .answered ((unanswered ticket rfl).answer m')
      | adoptSelection pending =>
        cases served.snapshot
        exact .answered ((unanswered pending.ticket rfl).answer m')
      | reload result ticket =>
        cases served.snapshot
        exact .answered ((unanswered ticket rfl).answer m')
      | refetch ticket => exact .removed ((unanswered ticket rfl).cons nofun)
      | collect => exact .built
    · refine (held.sound z (mem_middle.mpr (.inr among))).cons fun w numbered => other w ?_
      exact List.mem_cons_of_mem _ (List.mem_filterMap.mpr ⟨z, among, numbered⟩)
  case held =>
    obtain ⟨r, holds, same⟩ := held.held
    exact ⟨r, holds.cons (other _ List.mem_cons_self), same⟩
  case accounted =>
    refine ⟨[], _, _, trace, ⟨rfl, nofun⟩, .inr ?_⟩
    have here : .answered stage reply ∈ before ++ .answered stage reply :: after :=
      mem_middle.mpr (.inl rfl)
    cases stage with
    | adopt ticket summary => exact .inr ⟨ticket.seq, rfl, rfl, .inl ⟨_, here, rfl⟩⟩
    | adoptSelection pending => exact .inr ⟨pending.ticket.seq, rfl, rfl, .inl ⟨_, here, rfl⟩⟩
    | reload result ticket => exact .inr ⟨ticket.seq, rfl, rfl, .inl ⟨_, here, rfl⟩⟩
    | refetch ticket => exact .inl ⟨_, here, trivial⟩
    | collect => exact .inl ⟨_, here, trivial⟩

/-- An operation that has ended may be added. -/
theorem enter {running : List Position} (held : Tracked ⟨p, m, running, trace⟩)
    (result : Except PlannerError Success) :
    Tracked ⟨p, m, [] ++ .finished result :: running, trace⟩ := by
  have same : numbers p.appliedSeq (.finished result :: running) =
      numbers p.appliedSeq running := rfl
  constructor
  case loaded => exact held.loaded
  case bounded => exact held.bounded
  case distinct => exact same ▸ held.distinct
  case given => exact held.given
  case sound =>
    intro z member
    rcases List.mem_cons.mp member with rfl | other
    · exact .finished
    · exact held.sound z other
  case held => exact held.held
  case accounted =>
    obtain ⟨newer, seq, kind, older, last, fate⟩ := held.accounted
    refine ⟨newer, seq, kind, older, last, fate.imp_right (.imp ?_ ?_)⟩
    · rintro ⟨z, member, fetches⟩
      exact ⟨z, List.mem_cons_of_mem _ member, fetches⟩
    · rintro ⟨w, numbered, plan, ⟨z, member, carries⟩ | done⟩
      · exact ⟨w, numbered, plan, .inl ⟨z, List.mem_cons_of_mem _ member, carries⟩⟩
      · exact ⟨w, numbered, plan, .inr done⟩

/-- The first step of an operation. -/
theorem start (held : Tracked ⟨p, m, after, trace⟩) (op : Operation) :
    Tracked ⟨(p.start op).1, m, .ofProgress (p.start op).2 :: after, trace⟩ := by
  generalize started : p.start op = next
  have starts : Starts p next := started ▸ starts_start p op
  cases starts with
  | refused e => exact held.enter _
  | building =>
    exact (held.enter (.error .notReady)).move rfl rfl rfl rfl
      (.calling fun ticket has => by cases has) nofun (fun _ => .inr trivial) nofun
  | asking call stage issues next has =>
    exact (held.enter (.error .notReady)).ask rfl issues next has

/-- A step of an operation at the planner, by the place where it stands. -/
theorem advance (held : Tracked ⟨p, m, before ++ x :: after, trace⟩) :
    Tracked ⟨(x.advance Store.Memory p).1, m,
      before ++ (x.advance Store.Memory p).2.1 :: after,
      (x.advance Store.Memory p).2.2 ++ trace⟩ := by
  cases held.sound x (mem_middle.mpr (.inl rfl)) with
  | calling unanswered => exact held
  | @answered stage r given =>
    have lands := answer_lands p stage.request r
    obtain ⟨outcome, fate⟩ := lands.ok
    simp only [Position.advance, Position.takeAnswer_plan, Position.land]
    rw [fate] at lands ⊢
    rcases completed_ok stage outcome with ⟨result, settles⟩ | ⟨result, ends⟩
    · rw [settles]
      exact held.land lands rfl fun _ => .settling
    · rw [ends]
      exact held.land lands rfl fun _ => .finished
  | @removed ticket unanswered =>
    have sound : Position.Sound trace
        (.calling (.fetchPlan ticket.term) (.adopt ticket none)) := by
      refine .calling fun ticket' has => ?_
      cases has
      exact unanswered
    exact held.move rfl rfl rfl rfl sound nofun .inl fun _ => .inr trivial
  | @built summary =>
    obtain ⟨ticket, q, begun, issues, next⟩ := beginCall_plan held.loaded
      (fun t => .fetchPlan t.term) (fun t => .adopt t (some summary))
    have advanced : Position.advance Store.Memory p (.answered .collect (.ok summary)) =
        (q, .calling (.fetchPlan ticket.term) (.adopt ticket (some summary)), []) := by
      simp only [Position.advance, Position.takeAnswer, begun, Position.ofProgress]
    rw [advanced]
    exact held.ask rfl issues next rfl
  | @settling result =>
    rw [Position.advance_settling]
    cases marked : p.stale with
    | false =>
      exact held.move rfl rfl rfl rfl .finished nofun (fun set => by rw [marked] at set; cases set)
        nofun
    | true => exact held.move rfl rfl rfl rfl .reloading nofun (fun _ => .inr trivial) nofun
  | reloading => exact held.ask rfl ⟨rfl, rfl, rfl, rfl⟩ rfl rfl
  | finished => exact held

theorem step {s s' : State Store.Memory} (held : Tracked s) (step : Step Succeeds s s') :
    Tracked s' := by
  obtain ⟨p, m, running, trace⟩ := s
  cases step with
  | start op => exact held.start op
  | serve call stage before after reply store here served =>
    cases here
    exact held.serve served
  | advance before x after here =>
    cases here
    exact held.advance

end Tracked

theorem Run.tracked {s s' : State Store.Memory} (run : Run Succeeds s s') (held : Tracked s) :
    Tracked s' := by
  induction run with
  | refl => exact held
  | tail _ step ih => exact ih.step step

end Timetable.Service
