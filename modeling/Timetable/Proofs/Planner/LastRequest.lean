import Mathlib.Data.List.Nodup
import Mathlib.Data.List.Perm.Subperm
import Timetable.Proofs.Planner.Lifecycle

/-!
# The last request wins

Whatever requests are made and in whatever order they are answered: once each of them has been
completed (`Settled`), the plan of the newest ticket is held if its answer was a plan at all, and
nothing is left in flight. The answer to the newest ticket is newer than all that was applied before
it, and no later one can displace it (`Reach.newest_applied`). Main statement: `last_request_wins`.

A request has two steps, one that hands it out and one that completes it: `beginLoad` and `begin` go
with `complete`, `beginSelection` goes with `completeSelection`, which frees the group of the change
before it takes the answer. A run is settled when every request has had its second step once. The
planner also takes the bare ticket of a change. That decides the plan in the same way
(`newest_answer_held`) but is not the second step of the change, whose group stays in flight
(`inFlight_eq_nil_iff_settled`).
-/

namespace Timetable.Planner.Session

/-- The newest ticket that was answered with a plan is the one that was applied last. -/
def NewestApplied (s : Session) : Prop :=
  ∀ request r result, .answered request (.ok r) result ∈ s.history →
    (∀ t ∈ s.history.tickets, t.seq ≤ request.ticket.seq) →
    s.history.applied.head? = some (request.ticket, r)

namespace NewestApplied

variable {p : Planner} {past : History}

/-- A step that neither hands out a request nor answers one. -/
theorem keep {q : Planner} {e : Event} (held : NewestApplied ⟨p, past⟩)
    (unrequested : e.request? = none) (unanswered : e.completed? = none) :
    NewestApplied ⟨q, e :: past⟩ := by
  intro request r result answered newest
  have requests : History.requests (e :: past) = past.requests :=
    List.filterMap_cons_none unrequested
  have tickets : History.tickets (e :: past) = past.tickets := by
    unfold History.tickets
    rw [requests]
  have applied : History.applied (e :: past) = past.applied := by
    refine List.filterMap_cons_none ?_
    cases e with
    | answered => cases unanswered
    | requested | activated | staleTaken => rfl
  simp only [tickets] at newest
  simp only [applied]
  rcases List.mem_cons.mp answered with rfl | earlier
  · cases unanswered
  · exact held request r result earlier newest

/-- After a new request no ticket that was answered is the newest. -/
theorem requested {q : Planner} {new : Request} (numbered : Numbered ⟨p, past⟩)
    (seq : new.ticket.seq = p.lastSeq + 1) : NewestApplied ⟨q, .requested new :: past⟩ := by
  intro request r result answered newest
  rcases List.mem_cons.mp answered with same | earlier
  · cases same
  · have completed : request ∈ past.completions := List.mem_filterMap.mpr ⟨_, earlier, rfl⟩
    have bound := numbered.bounded _ (numbered.handed _ completed).ticket_mem
    have above := newest new.ticket List.mem_cons_self
    dsimp only at bound
    omega

/-- An answer that is applied belongs to the newest of the tickets that were answered. -/
theorem applied {q : Planner} {request : Request} {r : PlanRecord}
    (held : NewestApplied ⟨p, past⟩) (adopted : Adopted ⟨p, past⟩) (handed : past.Handed request)
    (newer : p.appliedSeq < request.ticket.seq) :
    NewestApplied ⟨q, .answered request (.ok r) (.ok .applied) :: past⟩ := by
  intro other r' result answered newest
  rcases List.mem_cons.mp answered with same | earlier
  · cases same
    rfl
  · have first := held other r' result earlier newest
    have among : (other.ticket, r') ∈ past.applied := List.mem_of_mem_head? first
    have older := adopted.le_appliedSeq _ among
    have above := newest request.ticket handed.ticket_mem
    dsimp only at older
    omega

/-- An answer that is dropped does not belong to the newest ticket, since it is its first. -/
theorem superseded {q : Planner} {request : Request} {r : PlanRecord}
    (held : NewestApplied ⟨p, past⟩) (numbered : Numbered ⟨p, past⟩) (adopted : Adopted ⟨p, past⟩)
    (handed : past.Handed request) (first_answer : request.ticket ∉ past.completed)
    (old : ¬(p.isLatest request.ticket = true ∧ p.appliedSeq < request.ticket.seq)) :
    NewestApplied ⟨q, .answered request (.ok r) (.ok .superseded) :: past⟩ := by
  intro other r' result answered newest
  rcases List.mem_cons.mp answered with same | earlier
  · cases same
    refine absurd ⟨?_, ?_⟩ old
    · exact (numbered.isLatest_iff handed.ticket_mem).mpr fun u member _ => newest u member
    · refine (adopted.lt_iff (numbered.positive _ handed.ticket_mem)).mpr fun a member => ?_
      have completed := adopted.answered a member
      have among := numbered.completed_subset _ completed
      refine Nat.lt_of_le_of_ne (newest _ among) fun same => first_answer ?_
      rw [← numbered.ticket_eq_of_seq among handed.ticket_mem same]
      exact completed
  · exact held other r' result earlier newest

theorem change {s : Session} (held : NewestApplied ⟨p, past⟩) (numbered : Numbered ⟨p, past⟩)
    (adopted : Adopted ⟨p, past⟩) (change : Change p past s) (once : s.history.completed.Nodup) :
    NewestApplied s := by
  cases change with
  | refused => exact held
  | requested key term phase lawful => exact requested numbered rfl
  | selected courseId typeKey choice next loaded free tried => exact requested numbered rfl
  | failed request e handed =>
    intro other r result answered newest
    rcases List.mem_cons.mp answered with same | earlier
    · cases same
    · exact held other r result earlier newest
  | applied request r handed latest newer => exact held.applied adopted handed newer
  | superseded request r handed old =>
    exact held.superseded numbered adopted handed (List.nodup_cons.mp once).1 old
  | activated courseId known => exact held.keep rfl rfl
  | staleTaken => exact held.keep rfl rfl

end NewestApplied

theorem Reach.newest_applied {s : Session} (reach : Reach s) (once : s.history.completed.Nodup) :
    NewestApplied s := by
  induction reach with
  | refl => exact fun request r result answered => by cases answered
  | @tail s s' before step held =>
    have earlier := step.change.completed_suffix.sublist.nodup once
    exact (held earlier).change (Reach.numbered before) (Reach.adopted before) step.change once

/-! ## Settled runs -/

/-- Every request was completed once: a ticket by `complete`, a selection change, with the ticket in
it, by `completeSelection`. -/
def Settled (h : History) : Prop := h.completions.Perm h.requests

/-- Every ticket was answered once, be it as that of its request or by itself. -/
def Spent (h : History) : Prop := h.completed.Perm h.tickets

theorem Settled.spent {h : History} (settled : Settled h) : Spent h := settled.map Request.ticket

theorem Numbered.nodup_tickets {s : Session} (numbered : Numbered s) : s.history.tickets.Nodup := by
  refine numbered.descending.imp fun older_lt same => ?_
  rw [same] at older_lt
  exact Nat.lt_irrefl _ older_lt

theorem Spent.nodup_completed {s : Session} (spent : Spent s.history) (numbered : Numbered s) :
    s.history.completed.Nodup :=
  spent.nodup_iff.mpr numbered.nodup_tickets

/-! ## What a settled run leaves -/

theorem Reach.ready_of_spent {s : Session} (reach : Reach s) (spent : Spent s.history)
    (loaded : s.planner.appliedSeq ≠ 0) : s.planner.phase = .ready := by
  have lifecycle := reach.lifecycle (spent.nodup_completed reach.numbered)
  cases phase : s.planner.phase with
  | idle => exact absurd (lifecycle.idle phase).1 loaded
  | loading =>
    obtain ⟨t, first, waiting⟩ := lifecycle.loading phase
    have handed := List.mem_of_find?_eq_some first
    exact absurd (spent.mem_iff.mpr handed) waiting
  | ready => rfl

/-- When every ticket was answered and the newest one with a plan, that plan is held, with its
clashes, and the planner is ready. -/
theorem newest_answer_held {s : Session} (reach : Reach s) (spent : Spent s.history)
    {request : Request} {r : PlanRecord} {result : Except PlannerError Outcome}
    (newest : ∀ t ∈ s.history.tickets, t.seq ≤ request.ticket.seq)
    (answered : .answered request (.ok r) result ∈ s.history) :
    s.planner.plan = .ofRecord r ∧ s.planner.conflicts = (Plan.ofRecord r).conflicts ∧
      s.planner.phase = .ready := by
  have once := spent.nodup_completed reach.numbered
  have first := reach.newest_applied once request r result answered newest
  have adopted := reach.adopted
  obtain ⟨rest, shape⟩ := List.head?_eq_some_iff.mp first
  have plan : s.planner.plan = .ofRecord r := by
    rw [adopted.plan, History.heldPlan, shape]
  have loaded : s.planner.appliedSeq ≠ 0 := by
    have completed := adopted.answered (request.ticket, r) (shape ▸ List.mem_cons_self)
    have positive := reach.numbered.positive _ (reach.numbered.completed_subset _ completed)
    rw [adopted.appliedSeq, History.heldSeq, shape]
    exact Nat.ne_of_gt positive
  exact ⟨plan, plan ▸ reach.derived.conflicts, reach.ready_of_spent spent loaded⟩

theorem Reach.inFlight_of_settled {s : Session} (reach : Reach s) (settled : Settled s.history) :
    s.planner.inFlight = [] := by
  refine eq_nil_of_valueOf? fun group => ?_
  cases held : valueOf? group s.planner.inFlight with
  | none => rfl
  | some n =>
    obtain ⟨pending, member, unanswered, -⟩ := (reach.guarded group n).mp held
    exact absurd (settled.mem_iff.mpr member) unanswered

/-- When no group is in flight, a request whose ticket was answered was answered itself. -/
theorem Reach.completed_of_free {s : Session} (reach : Reach s) (free : s.planner.inFlight = [])
    {request : Request} (member : request ∈ s.history.requests)
    (answered : request.ticket ∈ s.history.completed) : request ∈ s.history.completions := by
  cases request with
  | plain ticket =>
    obtain ⟨other, completed, same⟩ := List.mem_map.mp answered
    have handed := reach.numbered.handed other completed
    cases other with
    | plain ticket' =>
      have same : ticket' = ticket := same
      rw [← same]
      exact completed
    | selection pending =>
      rw [reach.numbered.eq_of_seq member handed (congrArg Ticket.seq same.symm)]
      exact completed
  | selection pending =>
    refine Decidable.byContradiction fun waits => ?_
    have held := (reach.guarded _ _).mpr ⟨pending, member, waits, rfl, rfl⟩
    rw [free] at held
    cases held

/-- Among the runs in which every ticket was answered once, the settled ones are those that leave no
group in flight. -/
theorem inFlight_eq_nil_iff_settled {s : Session} (reach : Reach s) (spent : Spent s.history) :
    s.planner.inFlight = [] ↔ Settled s.history := by
  refine ⟨fun free => ?_, reach.inFlight_of_settled⟩
  have requests : s.history.requests.Nodup := List.Nodup.of_map _ reach.numbered.nodup_tickets
  have subset : s.history.requests ⊆ s.history.completions := by
    intro request member
    have answered := spent.mem_iff.mpr (List.mem_map_of_mem member)
    exact reach.completed_of_free free member answered
  have length : s.history.completions.length = s.history.requests.length := by
    have same := spent.length_eq
    rwa [History.completed, History.tickets, List.length_map, List.length_map] at same
  have perm := (List.subperm_of_subset requests subset).perm_of_length_le (Nat.le_of_eq length)
  exact perm.symm

end Timetable.Planner.Session
