import Timetable.Proofs.Planner.Adoption
import Timetable.Proofs.Planner.InFlight

/-!
# The planner's life over whole runs

What always holds of a planner, whatever requests are made and however they are answered. `Derived`
collects what the planner keeps beside the held plan: its clashes, the active course, the term and
the groups in flight. `Lifecycle` says which request a load waits for; it needs that no ticket is
completed twice, since a second answer could land in a planner that has given up. Main statement:
`planner_invariant`.
-/

namespace Timetable.Planner

/-- The newest request for the whole plan. -/
def History.newestLoad? (h : History) : Option Ticket := h.tickets.find? fun t => t.key = .plan

namespace Session

/-! ## What is kept beside the plan -/

/-- What the planner keeps agrees with the plan that it holds. -/
structure Derived (s : Session) : Prop where
  conflicts : s.planner.conflicts = s.planner.plan.conflicts
  active : ∀ id, s.planner.active = some id → s.planner.plan.hasCourse id = true
  term : ∀ t, s.planner.plan.term = some t → s.planner.term = some t
  ready : s.planner.phase = .ready → s.planner.appliedSeq ≠ 0
  unloaded : s.planner.appliedSeq = 0 → s.planner.term = none ∧ s.planner.inFlight = [] ∧
    ∀ request ∈ s.history.requests, ∃ ticket, request = .plain ticket ∧ ticket.key = .plan

namespace Derived

variable {p : Planner} {past : History}

theorem new : Derived Session.new where
  conflicts := rfl
  active _ none_active := by cases none_active
  term _ no_term := by cases no_term
  ready not_ready := by cases not_ready
  unloaded _ := ⟨rfl, rfl, by simp [Session.new, History.requests]⟩

theorem phaseAfter_ready (held : Derived ⟨p, past⟩) {ticket : Ticket} {applied : Nat}
    (grown : p.appliedSeq ≤ applied) (ready : p.phaseAfter ticket applied = .ready) :
    applied ≠ 0 := by
  unfold phaseAfter at ready
  split at ready
  · split at ready
    · cases ready
    · next applied_ne => exact applied_ne
  · have loaded := held.ready ready
    dsimp only at loaded
    omega

theorem inFlightAfter_nil {request : Request} (empty : p.inFlight = []) :
    p.inFlightAfter request = [] := by
  cases request with
  | plain ticket => exact empty
  | selection pending => simp only [inFlightAfter, empty, dropValue, List.filter_nil, ite_self]

theorem change {s : Session} (held : Derived ⟨p, past⟩) (change : Change p past s) :
    Derived s := by
  cases change with
  | refused => exact held
  | requested key term phase lawful =>
    refine ⟨held.conflicts, held.active, held.term, fun ready => ?_, fun unloaded => ?_⟩
    · rcases lawful with ⟨-, loading⟩ | ⟨loaded, -, -⟩
      · exact absurd (loading.symm.trans ready) nofun
      · exact loaded
    · obtain ⟨no_term, none_in_flight, loads⟩ := held.unloaded unloaded
      refine ⟨no_term, none_in_flight, fun request member => ?_⟩
      rcases List.mem_cons.mp member with rfl | earlier
      · rcases lawful with ⟨whole, -⟩ | ⟨loaded, -, -⟩
        · exact ⟨_, rfl, whole⟩
        · exact absurd unloaded loaded
      · exact loads request earlier
  | selected courseId typeKey choice next loaded free tried =>
    exact ⟨held.conflicts, held.active, held.term, held.ready, fun unloaded =>
      absurd unloaded loaded⟩
  | failed request e handed =>
    refine ⟨held.conflicts, held.active, held.term, held.phaseAfter_ready (Nat.le_refl _), ?_⟩
    intro unloaded
    obtain ⟨no_term, none_in_flight, loads⟩ := held.unloaded unloaded
    exact ⟨no_term, inFlightAfter_nil none_in_flight, loads⟩
  | applied request r handed latest newer =>
    have applied_ne : request.ticket.seq ≠ 0 := Nat.ne_of_gt (Nat.zero_lt_of_lt newer)
    refine ⟨rfl, fun id active => ?_, fun t termed => ?_, fun _ => applied_ne,
      fun unloaded => absurd unloaded applied_ne⟩
    · exact (Option.filter_eq_some_iff.mp active).2
    · have termed : (Plan.ofRecord r).term = some t := termed
      show ((Plan.ofRecord r).term.or request.ticket.term).or p.term = some t
      rw [termed]
      rfl
  | superseded request r handed old =>
    refine ⟨held.conflicts, held.active, held.term, held.phaseAfter_ready (Nat.le_refl _), ?_⟩
    intro unloaded
    obtain ⟨no_term, none_in_flight, loads⟩ := held.unloaded unloaded
    exact ⟨no_term, inFlightAfter_nil none_in_flight, loads⟩
  | activated courseId known => exact ⟨held.conflicts, known, held.term, held.ready, held.unloaded⟩
  | staleTaken => exact ⟨held.conflicts, held.active, held.term, held.ready, held.unloaded⟩

end Derived

theorem Reach.derived {s : Session} (reach : Reach s) : Derived s := by
  induction reach with
  | refl => exact Derived.new
  | tail _ step held => exact held.change step.change

/-! ## What a load waits for -/

/-- An idle planner has had its newest load answered; a loading one waits for the answer. -/
structure Lifecycle (s : Session) : Prop where
  idle : s.planner.phase = .idle → s.planner.appliedSeq = 0 ∧
    ∀ t, s.history.newestLoad? = some t → t ∈ s.history.completed
  loading : s.planner.phase = .loading →
    ∃ t, s.history.newestLoad? = some t ∧ t ∉ s.history.completed

theorem Numbered.isLatest_of_newestLoad? {s : Session} (numbered : Numbered s) {t : Ticket}
    (newest : s.history.newestLoad? = some t) : s.planner.isLatest t = true ∧ t.key = .plan := by
  have keyed : t.key = .plan := by simpa using List.find?_some newest
  refine ⟨(numbered.isLatest_iff (List.mem_of_find?_eq_some newest)).mpr fun u member same => ?_,
    keyed⟩
  exact numbered.le_of_find? newest member (same.trans keyed)

theorem Numbered.newestLoad?_of_isLatest {s : Session} (numbered : Numbered s) {t : Ticket}
    (member : t ∈ s.history.tickets) (latest : s.planner.isLatest t = true)
    (keyed : t.key = .plan) : s.history.newestLoad? = some t := by
  have first := numbered.find?_of_isLatest member latest
  rw [keyed] at first
  exact first

/-- A ticket with the next number was not completed. -/
theorem Numbered.fresh {s : Session} (numbered : Numbered s) {t : Ticket}
    (seq : t.seq = s.planner.lastSeq + 1) : t ∉ s.history.completed := by
  intro completed
  have bound := numbered.bounded t (numbered.completed_subset t completed)
  omega

namespace Lifecycle

variable {p : Planner} {past : History}

theorem new : Lifecycle Session.new := ⟨fun _ => ⟨rfl, nofun⟩, nofun⟩

/-- A request makes the planner load only when it is for the whole plan. -/
theorem requested {q : Planner} {r : Request} (held : Lifecycle ⟨p, past⟩)
    (numbered : Numbered ⟨p, past⟩) (seq : r.ticket.seq = p.lastSeq + 1)
    (phase : (r.ticket.key = .plan ∧ q.phase = .loading) ∨
      (p.appliedSeq ≠ 0 ∧ q.phase = p.phase)) :
    Lifecycle ⟨q, .requested r :: past⟩ := by
  have newest : History.newestLoad? (.requested r :: past) =
      if r.ticket.key = .plan then some r.ticket else past.newestLoad? := by
    show List.find? _ (r.ticket :: past.tickets) = _
    rw [List.find?_cons]
    by_cases whole : r.ticket.key = .plan <;> simp [whole, History.newestLoad?]
  have unanswered : r.ticket ∉ past.completed := numbered.fresh seq
  constructor
  · intro idle
    rcases phase with ⟨-, loading⟩ | ⟨loaded, same⟩
    · exact absurd (loading.symm.trans idle) nofun
    · exact absurd (held.idle (same.symm.trans idle)).1 loaded
  · intro loading
    simp only [newest]
    by_cases whole : r.ticket.key = .plan
    · exact ⟨r.ticket, if_pos whole, unanswered⟩
    · rcases phase with ⟨keyed, -⟩ | ⟨-, same⟩
      · exact absurd keyed whole
      · simp only [whole, if_false]
        exact held.loading (same.symm.trans loading)

/-- The answer to the newest load ends it; any other answer leaves the planner waiting. -/
theorem answered {q : Planner} {request : Request} {reply : Except Store.Error PlanRecord}
    {result : Except PlannerError Outcome} (held : Lifecycle ⟨p, past⟩)
    (numbered : Numbered ⟨p, past⟩) (handed : past.Handed request)
    (phase : q.phase = p.phaseAfter request.ticket q.appliedSeq)
    (unapplied : p.phase = .idle → q.appliedSeq = 0) :
    Lifecycle ⟨q, .answered request reply result :: past⟩ := by
  have completed : History.completed (.answered request reply result :: past) =
    request.ticket :: past.completed := rfl
  have newest : History.newestLoad? (.answered request reply result :: past) =
    past.newestLoad? := rfl
  unfold phaseAfter at phase
  by_cases ends : p.phase = .loading ∧ p.isLatest request.ticket = true ∧
      request.ticket.key = .plan
  · rw [if_pos ends] at phase
    constructor
    · intro idle
      simp only [completed, newest]
      have none_applied : q.appliedSeq = 0 := by
        by_cases applied : q.appliedSeq = 0
        · exact applied
        · rw [if_neg applied] at phase
          exact absurd (phase.symm.trans idle) nofun
      refine ⟨none_applied, fun t first => ?_⟩
      have own := numbered.newestLoad?_of_isLatest handed.ticket_mem ends.2.1 ends.2.2
      rw [Option.some.inj (first.symm.trans own)]
      exact List.mem_cons_self
    · intro loading
      rw [loading] at phase
      split at phase <;> cases phase
  · rw [if_neg ends] at phase
    constructor
    · intro idle
      have was_idle := phase.symm.trans idle
      refine ⟨unapplied was_idle, fun t first => ?_⟩
      exact List.mem_cons_of_mem _ ((held.idle was_idle).2 t first)
    · intro loading
      have was_loading := phase.symm.trans loading
      obtain ⟨t, first, waiting⟩ := held.loading was_loading
      refine ⟨t, first, fun among => ?_⟩
      rcases List.mem_cons.mp among with same | earlier
      · have latest := numbered.isLatest_of_newestLoad? first
        rw [same] at latest
        exact ends ⟨was_loading, latest⟩
      · exact waiting earlier

/-- Other steps keep the phase and the tickets. -/
theorem keep {q : Planner} {e : Event} (held : Lifecycle ⟨p, past⟩)
    (unrequested : e.request? = none) (unanswered : e.completed? = none)
    (phase : q.phase = p.phase) (appliedSeq : q.appliedSeq = p.appliedSeq) :
    Lifecycle ⟨q, e :: past⟩ := by
  have requests : History.requests (e :: past) = past.requests :=
    List.filterMap_cons_none unrequested
  have completions : History.completions (e :: past) = past.completions :=
    List.filterMap_cons_none unanswered
  constructor <;>
    simp only [History.newestLoad?, History.tickets, History.completed, requests, completions,
      phase, appliedSeq]
  · exact held.idle
  · exact held.loading

theorem change {s : Session} (held : Lifecycle ⟨p, past⟩) (numbered : Numbered ⟨p, past⟩)
    (derived : Derived ⟨p, past⟩) (change : Change p past s)
    (once : s.history.completed.Nodup) : Lifecycle s := by
  cases change with
  | refused => exact held
  | requested key term phase lawful =>
    refine held.requested numbered rfl ?_
    rcases lawful with ⟨whole, loading⟩ | ⟨loaded, -, same⟩
    · exact .inl ⟨whole, loading⟩
    · exact .inr ⟨loaded, same⟩
  | selected courseId typeKey choice next loaded free tried =>
    exact held.requested numbered rfl (.inr ⟨loaded, rfl⟩)
  | failed request e handed =>
    exact held.answered numbered handed rfl fun idle => (held.idle idle).1
  | applied request r handed latest newer =>
    refine held.answered numbered handed rfl fun idle => ?_
    -- an idle planner has only had loads, and the newest of them was answered before
    obtain ⟨unloaded, answered_before⟩ := held.idle idle
    obtain ⟨r', among, same⟩ := List.mem_map.mp handed.ticket_mem
    obtain ⟨ticket, plain, keyed⟩ := (derived.unloaded unloaded).2.2 r' among
    have whole : request.ticket.key = .plan := by
      rw [← same, plain]
      exact keyed
    have first := numbered.newestLoad?_of_isLatest handed.ticket_mem latest whole
    exact absurd (answered_before _ first) (List.nodup_cons.mp once).1
  | superseded request r handed old =>
    exact held.answered numbered handed rfl fun idle => (held.idle idle).1
  | activated courseId known => exact held.keep rfl rfl rfl rfl
  | staleTaken => exact held.keep rfl rfl rfl rfl

end Lifecycle

/-- What was completed stays completed. -/
theorem Change.completed_suffix {p : Planner} {past : History} {s : Session}
    (change : Change p past s) : past.completed <:+ s.history.completed := by
  cases change with
  | refused | requested | selected | activated | staleTaken => exact List.suffix_refl _
  | failed | applied | superseded => exact List.suffix_cons _ _

theorem Reach.lifecycle {s : Session} (reach : Reach s) (once : s.history.completed.Nodup) :
    Lifecycle s := by
  induction reach with
  | refl => exact Lifecycle.new
  | @tail s s' before step held =>
    have earlier := step.change.completed_suffix.sublist.nodup once
    exact (held earlier).change (Reach.numbered before) (Reach.derived before) step.change once

/-! ## The invariant -/

/-- What holds of a planner in every run in which no ticket is completed twice. -/
structure Sound (s : Session) : Prop where
  conflicts : s.planner.conflicts = s.planner.plan.conflicts
  oneOfEachKind : ∀ c ∈ s.planner.plan.courses, ∀ key,
    (c.selected.filter fun x => x.typeKey = key).length ≤ 1
  active : ∀ id, s.planner.active = some id → ∃ c ∈ s.planner.plan.courses, c.id = id
  term : ∀ t, s.planner.plan.term = some t → s.planner.term = some t
  ready : s.planner.phase = .ready → 0 < s.planner.appliedSeq
  idle : s.planner.phase = .idle → s.planner.appliedSeq = 0
  unloaded : s.planner.appliedSeq = 0 → s.planner.plan = .empty ∧ s.planner.term = none ∧
    s.planner.active = none ∧ s.planner.inFlight = []
  /-- The newest request for the whole plan has not been completed, and its answer ends the load. -/
  loading : s.planner.phase = .loading →
    ∃ t ∈ s.history.tickets, t.key = .plan ∧
      (∀ u ∈ s.history.tickets, u.key = .plan → u.seq ≤ t.seq) ∧ t ∉ s.history.completed ∧
      ∀ reply, (s.planner.complete t reply).2.phase ≠ .loading
  appliedSeq_le : s.planner.appliedSeq ≤ s.planner.lastSeq
  latest_le : ∀ key n, valueOf? key s.planner.latest = some n → n ≤ s.planner.lastSeq
  /-- The number that is remembered for a key is that of the newest ticket with the key. -/
  latest : ∀ key n, valueOf? key s.planner.latest = some n →
    ∃ t ∈ s.history.tickets, t.key = key ∧ t.seq = n ∧
      ∀ u ∈ s.history.tickets, u.key = key → u.seq ≤ n
  inFlight_le : ∀ group n, valueOf? group s.planner.inFlight = some n → n ≤ s.planner.lastSeq

theorem length_filter_selected_le_one (c : Course) (key : String) :
    (c.selected.filter fun x => x.typeKey = key).length ≤ 1 := by
  have apart : (c.selected.filter fun x => x.typeKey = key).Pairwise
      fun a b => a.selected = true → b.selected = true → a.typeKey ≠ b.typeKey :=
    (c.oneOfEachKind.filter _).filter _
  have same : ∀ x ∈ c.selected.filter fun x => x.typeKey = key,
      x.selected = true ∧ x.typeKey = key := by
    intro x member
    obtain ⟨chosen, keyed⟩ := List.mem_filter.mp member
    exact ⟨(List.mem_filter.mp chosen).2, by simpa using keyed⟩
  cases shape : c.selected.filter fun x => x.typeKey = key with
  | nil => exact Nat.zero_le _
  | cons a rest =>
    rw [shape] at apart same
    cases rest with
    | nil => exact Nat.le_refl _
    | cons b rest =>
      have differ := (List.pairwise_cons.mp apart).1 b List.mem_cons_self
      have of_a := same a List.mem_cons_self
      have of_b := same b (List.mem_cons_of_mem _ List.mem_cons_self)
      exact absurd (of_a.2.trans of_b.2.symm) (differ of_a.1 of_b.1)

/-- A planner that holds no plan is as it was at the start, but for its phase and its tickets. -/
theorem Reach.unloaded {s : Session} (reach : Reach s) (unloaded : s.planner.appliedSeq = 0) :
    s.planner.plan = .empty ∧ s.planner.term = none ∧ s.planner.active = none ∧
      s.planner.inFlight = [] := by
  have adopted := reach.adopted
  have derived := reach.derived
  have empty : s.planner.plan = .empty := by
    have read := adopted.appliedSeq
    rw [adopted.plan]
    unfold History.heldPlan
    unfold History.heldSeq at read
    cases shape : s.history.applied with
    | nil => rfl
    | cons first rest =>
      rw [shape] at read
      have answered := adopted.answered first (shape ▸ List.mem_cons_self)
      have positive := reach.numbered.positive _ (reach.numbered.completed_subset _ answered)
      dsimp only at read
      omega
  obtain ⟨no_term, none_in_flight, -⟩ := derived.unloaded unloaded
  refine ⟨empty, no_term, ?_, none_in_flight⟩
  cases active : s.planner.active with
  | none => rfl
  | some id =>
    have known := derived.active id active
    rw [empty] at known
    cases known

/-- The answer to the newest load leaves no planner loading. -/
theorem complete_phase_ne_loading {p : Planner} {ticket : Ticket}
    (latest : p.isLatest ticket = true) (whole : ticket.key = .plan)
    (reply : Except Store.Error PlanRecord) : (p.complete ticket reply).2.phase ≠ .loading := by
  have settled : ∀ applied, p.phaseAfter ticket applied ≠ .loading := by
    intro applied
    unfold phaseAfter
    by_cases loading : p.phase = .loading
    · rw [if_pos ⟨loading, latest, whole⟩]
      split <;> nofun
    · rw [if_neg fun ends => loading ends.1]
      exact loading
  cases reply with
  | error e =>
    rw [complete_error]
    exact settled _
  | ok r =>
    by_cases newer : p.appliedSeq < ticket.seq
    · rw [complete_applied _ r latest newer]
      exact settled _
    · rw [complete_superseded _ r fun adopted => newer adopted.2]
      exact settled _

/-- In every run in which no ticket is completed twice the planner is sound. -/
theorem planner_invariant {s : Session} (reach : Reach s) (once : s.history.completed.Nodup) :
    Sound s := by
  have numbered := reach.numbered
  have adopted := reach.adopted
  have derived := reach.derived
  have lifecycle := reach.lifecycle once
  have remembered : ∀ key n, valueOf? key s.planner.latest = some n →
      ∃ t ∈ s.history.tickets, t.key = key ∧ t.seq = n ∧
        ∀ u ∈ s.history.tickets, u.key = key → u.seq ≤ n := by
    intro key n held
    rw [numbered.latest key, Option.map_eq_some_iff] at held
    obtain ⟨t, first, rfl⟩ := held
    exact ⟨t, List.mem_of_find?_eq_some first, by simpa using List.find?_some first, rfl,
      fun u member keyed => numbered.le_of_find? first member keyed⟩
  exact
    { conflicts := derived.conflicts
      oneOfEachKind := fun c _ key => length_filter_selected_le_one c key
      active := fun id active => by
        simpa [Plan.hasCourse, List.any_eq_true] using derived.active id active
      term := derived.term
      ready := fun ready => Nat.pos_of_ne_zero (derived.ready ready)
      idle := fun idle => (lifecycle.idle idle).1
      unloaded := reach.unloaded
      loading := fun loading => by
        obtain ⟨t, first, waiting⟩ := lifecycle.loading loading
        obtain ⟨latest, whole⟩ := numbered.isLatest_of_newestLoad? first
        exact ⟨t, List.mem_of_find?_eq_some first, whole,
          fun u member keyed => numbered.le_of_find? first member keyed, waiting,
          complete_phase_ne_loading latest whole⟩
      appliedSeq_le := by
        by_cases loaded : s.planner.appliedSeq = 0
        · omega
        · obtain ⟨t, member, same⟩ := adopted.appliedSeq_mem numbered loaded
          exact same ▸ numbered.bounded t member
      latest_le := fun key n held => by
        obtain ⟨t, member, -, rfl, -⟩ := remembered key n held
        exact numbered.bounded t member
      latest := remembered
      inFlight_le := fun group n held => by
        obtain ⟨pending, member, -, -, rfl⟩ := (reach.guarded group n).mp held
        exact numbered.bounded _ (List.mem_map_of_mem member) }

theorem planner_invariant_overlap : overlap.history.completed.Nodup ∧ Sound overlap :=
  ⟨by decide, planner_invariant reach_overlap (by decide)⟩

end Session

end Timetable.Planner
