import Timetable.Proofs.Planner.Numbering

/-!
# Which answers become the held plan

The held plan is the answer that was applied last, and the numbers of the applied tickets rise
(`Adopted`). So the two comparisons of the planner, with the latest number of the key and with the
number of the held plan, range over the whole history: an answer is applied when no later ticket has
its key and every applied ticket is older (`answer_ok_eq_applied_iff`). A successful answer that is
not applied leaves the mark of a stale plan until it is taken (`Reach.stale_eq_missed`). Main
statement: `adoption_rule`.
-/

namespace Timetable.Planner

namespace History

/-- The plan that was applied last. -/
def heldPlan (h : History) : Plan :=
  match h.applied with
  | [] => .empty
  | (_, r) :: _ => .ofRecord r

/-- The number of the ticket that was applied last; zero when there is none. -/
def heldSeq (h : History) : Nat :=
  match h.applied with
  | [] => 0
  | (ticket, _) :: _ => ticket.seq

/-- No later ticket has the key, and every ticket that was applied is older. -/
def Adoptable (h : History) (ticket : Ticket) : Prop :=
  (∀ t ∈ h.tickets, t.key = ticket.key → t.seq ≤ ticket.seq) ∧
    ∀ a ∈ h.applied, a.1.seq < ticket.seq

/-- Whether a successful answer was dropped since the mark was last taken. -/
def missed : History → Bool
  | [] => false
  | .staleTaken :: _ => false
  | .answered _ (.ok _) (.ok .superseded) :: _ => true
  | _ :: past => missed past

theorem missed_append {newer older : History} {request : Request} {r : PlanRecord}
    (untaken : .staleTaken ∉ newer) :
    missed (newer ++ .answered request (.ok r) (.ok .superseded) :: older) = true := by
  induction newer with
  | nil => rfl
  | cons e newer ih =>
    rw [List.mem_cons, not_or] at untaken
    rw [List.cons_append]
    unfold missed
    split
    · next same => cases same
    · next same => exact absurd (List.cons.inj same).1.symm untaken.1
    · rfl
    · next same => rw [← (List.cons.inj same).2]; exact ih untaken.2

end History

namespace Session

/-- The held plan is the answer that was applied last. -/
structure Adopted (s : Session) : Prop where
  appliedSeq : s.planner.appliedSeq = s.history.heldSeq
  plan : s.planner.plan = s.history.heldPlan
  descending : s.history.applied.Pairwise fun newer older => older.1.seq < newer.1.seq
  answered : ∀ a ∈ s.history.applied, a.1 ∈ s.history.completed

namespace Adopted

variable {p : Planner} {past : History}

theorem new : Adopted Session.new := ⟨rfl, rfl, .nil, by simp [Session.new, History.applied]⟩

/-- Every ticket that was applied is at most as new as the held plan. -/
theorem le_appliedSeq {s : Session} (held : Adopted s) :
    ∀ a ∈ s.history.applied, a.1.seq ≤ s.planner.appliedSeq := by
  intro a member
  have order := held.descending
  rw [held.appliedSeq]
  unfold History.heldSeq
  cases shape : s.history.applied with
  | nil => rw [shape] at member; cases member
  | cons first rest =>
    rw [shape] at member order
    rcases List.mem_cons.mp member with rfl | older
    · exact Nat.le_refl _
    · exact Nat.le_of_lt ((List.pairwise_cons.mp order).1 a older)

theorem completed_cons (e : Event) : ∀ t ∈ past.completed, t ∈ History.completed (e :: past) := by
  intro t member
  obtain ⟨request, among, same⟩ := List.mem_map.mp member
  obtain ⟨e', before, completes⟩ := List.mem_filterMap.mp among
  exact List.mem_map.mpr
    ⟨request, List.mem_filterMap.mpr ⟨e', List.mem_cons_of_mem e before, completes⟩, same⟩

/-- A step that applies nothing keeps the held plan. -/
theorem keep {q : Planner} {e : Event} (held : Adopted ⟨p, past⟩) (unapplied : e.applied? = none)
    (appliedSeq : q.appliedSeq = p.appliedSeq) (plan : q.plan = p.plan) :
    Adopted ⟨q, e :: past⟩ := by
  have applied : History.applied (e :: past) = past.applied := List.filterMap_cons_none unapplied
  constructor <;> simp only [applied, appliedSeq, plan, History.heldSeq, History.heldPlan]
  case appliedSeq => exact held.appliedSeq
  case plan => exact held.plan
  case descending => exact held.descending
  case answered => exact fun a member => completed_cons e _ (held.answered a member)

theorem change {s : Session} (held : Adopted ⟨p, past⟩) (change : Change p past s) :
    Adopted s := by
  cases change with
  | refused => exact held
  | requested key term phase lawful => exact held.keep rfl rfl rfl
  | selected courseId typeKey choice next loaded free tried => exact held.keep rfl rfl rfl
  | failed request e handed => exact held.keep rfl rfl rfl
  | applied request r handed latest newer =>
    have grown : History.applied (.answered request (.ok r) (.ok .applied) :: past) =
      (request.ticket, r) :: past.applied := rfl
    constructor <;> simp only [grown, History.heldSeq, History.heldPlan]
    case appliedSeq => rfl
    case plan => rfl
    case descending =>
      refine List.pairwise_cons.mpr ⟨fun a member => ?_, held.descending⟩
      exact Nat.lt_of_le_of_lt (held.le_appliedSeq a member) newer
    case answered =>
      intro a member
      rcases List.mem_cons.mp member with rfl | older
      · exact List.mem_cons_self
      · exact completed_cons _ _ (held.answered a older)
  | superseded request r handed old => exact held.keep rfl rfl rfl
  | activated courseId known => exact held.keep rfl rfl rfl
  | staleTaken => exact held.keep rfl rfl rfl

end Adopted

theorem Reach.adopted {s : Session} (reach : Reach s) : Adopted s := by
  induction reach with
  | refl => exact Adopted.new
  | tail _ step held => exact held.change step.change

theorem Adopted.appliedSeq_mem {s : Session} (adopted : Adopted s) (numbered : Numbered s)
    (loaded : s.planner.appliedSeq ≠ 0) :
    ∃ t ∈ s.history.tickets, t.seq = s.planner.appliedSeq := by
  have read := adopted.appliedSeq
  unfold History.heldSeq at read
  cases shape : s.history.applied with
  | nil =>
    rw [shape] at read
    exact absurd read loaded
  | cons first rest =>
    rw [shape] at read
    have answered := adopted.answered first (shape ▸ List.mem_cons_self)
    exact ⟨first.1, numbered.completed_subset _ answered, read.symm⟩

/-! ## The fate of an answer -/

/-- A ticket is newer than the held plan when it is newer than all that was applied. -/
theorem Adopted.lt_iff {s : Session} (held : Adopted s) {ticket : Ticket}
    (positive : 0 < ticket.seq) :
    s.planner.appliedSeq < ticket.seq ↔ ∀ a ∈ s.history.applied, a.1.seq < ticket.seq := by
  constructor
  · intro newer a member
    exact Nat.lt_of_le_of_lt (held.le_appliedSeq a member) newer
  · intro bound
    rw [held.appliedSeq]
    unfold History.heldSeq
    cases shape : s.history.applied with
    | nil => exact positive
    | cons first rest => exact bound first (shape ▸ List.mem_cons_self)

theorem answer_ok_fst (p : Planner) (request : Request) (r : PlanRecord) :
    (p.answer request (.ok r)).1 =
      .ok (if p.isLatest request.ticket = true ∧ p.appliedSeq < request.ticket.seq then .applied
        else .superseded) := by
  rw [answer_eq, complete_ok_fst]
  rfl

theorem adoptable_iff {s : Session} (reach : Reach s) {request : Request}
    (handed : s.history.Handed request) :
    s.planner.isLatest request.ticket = true ∧ s.planner.appliedSeq < request.ticket.seq ↔
      s.history.Adoptable request.ticket := by
  have numbered := reach.numbered
  have member := handed.ticket_mem
  rw [numbered.isLatest_iff member, reach.adopted.lt_iff (numbered.positive _ member)]
  rfl

theorem answer_ok_eq_applied_iff {s : Session} (reach : Reach s) {request : Request}
    (handed : s.history.Handed request) (r : PlanRecord) :
    (s.planner.answer request (.ok r)).1 = .ok .applied ↔ s.history.Adoptable request.ticket := by
  rw [answer_ok_fst, ← adoptable_iff reach handed]
  split <;> simp_all

theorem answer_ok_eq_superseded_iff {s : Session} (reach : Reach s) {request : Request}
    (handed : s.history.Handed request) (r : PlanRecord) :
    (s.planner.answer request (.ok r)).1 = .ok .superseded ↔
      ¬s.history.Adoptable request.ticket := by
  rw [answer_ok_fst, ← adoptable_iff reach handed]
  split <;> simp_all

/-! ## What changes the held plan and the mark -/

/-- Only an answer that is applied changes the held plan. -/
theorem Change.plan_eq {p : Planner} {past : History} {s : Session} (change : Change p past s) :
    s.planner.plan = p.plan ∨
      ∃ request r, s.history = .answered request (.ok r) (.ok .applied) :: past ∧
        s.planner.plan = .ofRecord r := by
  cases change with
  | applied request r handed latest newer => exact .inr ⟨request, r, rfl, rfl⟩
  | refused => exact .inl rfl
  | requested key term phase lawful => exact .inl rfl
  | selected courseId typeKey choice next loaded free tried => exact .inl rfl
  | failed request e handed => exact .inl rfl
  | superseded request r handed old => exact .inl rfl
  | activated courseId known => exact .inl rfl
  | staleTaken => exact .inl rfl

theorem Reach.stale_eq_missed {s : Session} (reach : Reach s) :
    s.planner.stale = s.history.missed := by
  induction reach with
  | refl => rfl
  | @tail s s' _ step held =>
    obtain ⟨p, past⟩ := s
    cases step.change with
    | refused => exact held
    | requested key term phase lawful => exact held
    | selected courseId typeKey choice next loaded free tried => exact held
    | failed request e handed => exact held
    | applied request r handed latest newer => exact held
    | superseded request r handed old => rfl
    | activated courseId known => exact held
    | staleTaken => rfl

/-- An answer that succeeds is either applied or superseded. -/
theorem Reach.result_of_answered {s : Session} (reach : Reach s) {request : Request}
    {r : PlanRecord} {result : Except PlannerError Outcome}
    (answered : .answered request (.ok r) result ∈ s.history) :
    result = .ok .applied ∨ result = .ok .superseded := by
  induction reach with
  | refl => cases answered
  | @tail s s' _ step held =>
    obtain ⟨p, past⟩ := s
    cases step.change with
    | refused => exact held answered
    | requested | selected | failed | activated | staleTaken =>
      rcases List.mem_cons.mp answered with same | earlier
      · cases same
      · exact held earlier
    | applied =>
      rcases List.mem_cons.mp answered with same | earlier
      · cases same; exact .inl rfl
      · exact held earlier
    | superseded =>
      rcases List.mem_cons.mp answered with same | earlier
      · cases same; exact .inr rfl
      · exact held earlier

/-- A successful answer is applied when no later ticket has its key and every applied ticket is
older, and superseded otherwise. So the applied numbers rise, the held plan is the answer applied
last and changes with nothing else, and an answer that was dropped leaves the mark of a stale plan
until the mark is taken. -/
theorem adoption_rule {s : Session} (reach : Reach s) :
    (s.history.tickets.Pairwise fun newer older => older.seq < newer.seq) ∧
    (∀ request r, s.history.Handed request →
      ((s.planner.answer request (.ok r)).1 = .ok .applied ↔
        s.history.Adoptable request.ticket) ∧
      ((s.planner.answer request (.ok r)).1 = .ok .superseded ↔
        ¬s.history.Adoptable request.ticket)) ∧
    (s.history.applied.Pairwise fun newer older => older.1.seq < newer.1.seq) ∧
    s.planner.plan = s.history.heldPlan ∧
    (∀ s', Step s s' → s'.planner.plan = s.planner.plan ∨
      ∃ request r, s'.history = .answered request (.ok r) (.ok .applied) :: s.history ∧
        s'.planner.plan = .ofRecord r) ∧
    (∀ newer request r result older,
      s.history = newer ++ .answered request (.ok r) result :: older →
      result ≠ .ok .applied → .staleTaken ∉ newer → s.planner.stale = true) := by
  refine ⟨reach.numbered.descending, fun request r handed => ?_, reach.adopted.descending,
    reach.adopted.plan, fun s' step => step.change.plan_eq, ?_⟩
  · exact ⟨answer_ok_eq_applied_iff reach handed r, answer_ok_eq_superseded_iff reach handed r⟩
  · intro newer request r result older split unapplied untaken
    have answered : .answered request (.ok r) result ∈ s.history := by
      rw [split]
      exact List.mem_append_right _ List.mem_cons_self
    have dropped : result = .ok .superseded :=
      (reach.result_of_answered answered).resolve_left unapplied
    rw [reach.stale_eq_missed, split, dropped]
    exact History.missed_append untaken

theorem adoption_rule_overlap :
    overlap.planner.plan = .ofRecord (sample true) ∧ overlap.planner.stale = true := by
  obtain ⟨-, -, -, plan, -, stale⟩ := adoption_rule reach_overlap
  exact ⟨plan, stale [] (.plain ⟨.plan, 2, some "202620"⟩) (sample false) (.ok .superseded)
    overlap.history.tail rfl nofun nofun⟩

end Session

end Timetable.Planner
