import Timetable.Proofs.Planner.Numbering

/-!
# The type groups in flight

A type group is in flight exactly while a selection change of it has been handed out and not been
answered, and it is held under the number of that change (`Reach.guarded`). A ticket that is
completed by itself frees nothing.
-/

namespace Timetable.Planner.Session

/-- A selection change of the group that was handed out under the number and not answered. -/
def Outstanding (h : History) (group : Int × String) (n : Nat) : Prop :=
  ∃ pending : PendingSelection, .selection pending ∈ h.requests ∧
    .selection pending ∉ h.completions ∧ (pending.courseId, pending.typeKey) = group ∧
    pending.ticket.seq = n

/-- The groups in flight are those with an outstanding change. -/
def Guarded (s : Session) : Prop :=
  ∀ group n, valueOf? group s.planner.inFlight = some n ↔ Outstanding s.history group n

namespace Guarded

variable {p : Planner} {past : History}

theorem new : Guarded Session.new := by
  intro group n
  constructor
  · intro held
    cases held
  · rintro ⟨pending, member, -⟩
    cases member

/-- A step that hands out no selection change and answers none keeps the groups. -/
theorem keep {q : Planner} {e : Event} (held : Guarded ⟨p, past⟩)
    (unrequested : ∀ pending, e.request? ≠ some (.selection pending))
    (unanswered : ∀ pending, e.completed? ≠ some (.selection pending))
    (inFlight : q.inFlight = p.inFlight) : Guarded ⟨q, e :: past⟩ := by
  have requests : ∀ pending, .selection pending ∈ History.requests (e :: past) ↔
      .selection pending ∈ past.requests := by
    intro pending
    simp only [History.requests, List.mem_filterMap, List.mem_cons, exists_eq_or_imp,
      unrequested pending, false_or]
  have completions : ∀ pending, .selection pending ∈ History.completions (e :: past) ↔
      .selection pending ∈ past.completions := by
    intro pending
    simp only [History.completions, List.mem_filterMap, List.mem_cons, exists_eq_or_imp,
      unanswered pending, false_or]
  intro group n
  simp only [Outstanding, requests, completions, inFlight]
  exact held group n

/-- The answer to a selection change takes its own entry away. -/
theorem valueOf?_inFlightAfter {pending : PendingSelection} {group : Int × String} {n : Nat} :
    valueOf? group (p.inFlightAfter (.selection pending)) = some n ↔
      valueOf? group p.inFlight = some n ∧
        ¬((pending.courseId, pending.typeKey) = group ∧ pending.ticket.seq = n) := by
  by_cases entry :
      valueOf? (pending.courseId, pending.typeKey) p.inFlight = some pending.ticket.seq
  · rw [inFlightAfter, if_pos entry, valueOf?_dropValue]
    by_cases same : (pending.courseId, pending.typeKey) = group
    · subst same
      simp [entry]
    · simp [same]
  · rw [inFlightAfter, if_neg entry]
    constructor
    · intro held
      refine ⟨held, fun own => entry ?_⟩
      rw [own.1, own.2]
      exact held
    · exact And.left

/-- A new selection change of a free group is outstanding. -/
theorem selected {q : Planner} {pending : PendingSelection} (held : Guarded ⟨p, past⟩)
    (numbered : Numbered ⟨p, past⟩) (free : p.isMutating pending.courseId pending.typeKey = false)
    (seq : pending.ticket.seq = p.lastSeq + 1)
    (inFlight : q.inFlight =
      setValue (pending.courseId, pending.typeKey) (p.lastSeq + 1) p.inFlight) :
    Guarded ⟨q, .requested (.selection pending) :: past⟩ := by
  have requests : History.requests (.requested (.selection pending) :: past) =
    .selection pending :: past.requests := rfl
  have fresh : .selection pending ∉ past.completions := by
    intro answered
    have handed := (numbered.handed _ answered).ticket_mem
    have bound := numbered.bounded _ handed
    have seq : (Request.selection pending).ticket.seq = p.lastSeq + 1 := seq
    rw [seq] at bound
    exact Nat.not_succ_le_self _ bound
  intro group n
  rw [inFlight, valueOf?_setValue]
  by_cases same : (pending.courseId, pending.typeKey) = group
  · rw [if_pos same]
    constructor
    · intro number
      refine ⟨pending, ?_, fresh, same, seq.trans (Option.some.inj number)⟩
      rw [requests]
      exact List.mem_cons_self
    · rintro ⟨other, member, unanswered, of_group, number⟩
      rw [requests] at member
      rcases List.mem_cons.mp member with here | earlier
      · cases here
        rw [← seq, number]
      · -- the group was free, so no earlier change of it is outstanding
        have busy := (held group n).mpr ⟨other, earlier, unanswered, of_group, number⟩
        rw [isMutating, same, busy] at free
        cases free
  · rw [if_neg same]
    refine (held group n).trans ⟨?_, ?_⟩
    · rintro ⟨other, member, unanswered, of_group, number⟩
      exact ⟨other, requests ▸ List.mem_cons_of_mem _ member, unanswered, of_group, number⟩
    · rintro ⟨other, member, unanswered, of_group, number⟩
      rw [requests] at member
      rcases List.mem_cons.mp member with here | earlier
      · cases here
        exact absurd of_group same
      · exact ⟨other, earlier, unanswered, of_group, number⟩

/-- The answer to a request frees the group of its own change and no other. -/
theorem answered {q : Planner} {request : Request} {reply : Except Store.Error PlanRecord}
    {result : Except PlannerError Outcome} (held : Guarded ⟨p, past⟩)
    (numbered : Numbered ⟨p, past⟩) (handed : past.Handed request)
    (inFlight : q.inFlight = p.inFlightAfter request) :
    Guarded ⟨q, .answered request reply result :: past⟩ := by
  cases request with
  | plain ticket => exact held.keep (fun pending => nofun) (fun pending => nofun) inFlight
  | selection pending =>
    have completions : History.completions (.answered (.selection pending) reply result :: past) =
      .selection pending :: past.completions := rfl
    intro group n
    rw [inFlight, valueOf?_inFlightAfter]
    refine (and_congr_left fun _ => held group n).trans ⟨?_, ?_⟩
    · rintro ⟨⟨other, member, unanswered, of_group, number⟩, not_own⟩
      refine ⟨other, member, ?_, of_group, number⟩
      rw [completions, List.mem_cons, not_or]
      refine ⟨fun same => not_own ?_, unanswered⟩
      cases same
      exact ⟨of_group, number⟩
    · rintro ⟨other, member, unanswered, of_group, number⟩
      rw [completions, List.mem_cons, not_or] at unanswered
      refine ⟨⟨other, member, unanswered.2, of_group, number⟩, fun own => unanswered.1 ?_⟩
      exact numbered.eq_of_seq member handed (number.trans own.2.symm)

theorem change {s : Session} (held : Guarded ⟨p, past⟩) (numbered : Numbered ⟨p, past⟩)
    (change : Change p past s) : Guarded s := by
  cases change with
  | refused => exact held
  | requested key term phase lawful =>
    exact held.keep (fun pending => nofun) (fun pending => nofun) rfl
  | selected courseId typeKey choice next loaded free tried =>
    exact held.selected numbered free rfl rfl
  | failed request e handed => exact held.answered numbered handed rfl
  | applied request r handed latest newer => exact held.answered numbered handed rfl
  | superseded request r handed old => exact held.answered numbered handed rfl
  | activated courseId known => exact held.keep (fun pending => nofun) (fun pending => nofun) rfl
  | staleTaken => exact held.keep (fun pending => nofun) (fun pending => nofun) rfl

end Guarded

/-- The groups in flight are those of the selection changes that wait for their answer. -/
theorem Reach.guarded {s : Session} (reach : Reach s) : Guarded s := by
  induction reach with
  | refl => exact Guarded.new
  | tail before step held => exact held.change (Reach.numbered before) step.change

end Timetable.Planner.Session
