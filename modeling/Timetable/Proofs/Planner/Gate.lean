import Timetable.Proofs.Planner.InFlight

/-!
# The gate before a type group

A selection change is refused while another change of its type group is on its way. The entry that
keeps the group is found by the group but belongs to one change: it carries the number of that
change, and only the completion of that change takes it away (`Gate.frees`, `Gate.again`). Whatever
else happens to the planner, whether its plan is replaced, loses the course or is marked as stale,
leaves the entry where it is (`Gate.kept`). Main statement: `in_flight_gate`.
-/

namespace Timetable.Planner

/-- A selection change was handed out and waits for its answer. -/
def History.Waits (h : History) (pending : PendingSelection) : Prop :=
  .selection pending ∈ h.requests ∧ .selection pending ∉ h.completions

instance (h : History) (pending : PendingSelection) : Decidable (h.Waits pending) :=
  inferInstanceAs (Decidable (_ ∧ _))

namespace Session

theorem outstanding_of_waits {h : History} {pending : PendingSelection} (waits : h.Waits pending) :
    Outstanding h (pending.courseId, pending.typeKey) pending.ticket.seq :=
  ⟨pending, waits.1, waits.2, rfl, rfl⟩

/-! ## The entries -/

theorem nodup_keys_inFlightAfter {p : Planner} (request : Request)
    (distinct : (p.inFlight.map Prod.fst).Nodup) :
    ((p.inFlightAfter request).map Prod.fst).Nodup := by
  cases request with
  | plain ticket => exact distinct
  | selection pending =>
    by_cases own :
        valueOf? (pending.courseId, pending.typeKey) p.inFlight = some pending.ticket.seq
    · rw [inFlightAfter, if_pos own]
      exact (List.filter_sublist.map Prod.fst).nodup distinct
    · rw [inFlightAfter, if_neg own]
      exact distinct

theorem Reach.nodup_inFlight {s : Session} (reach : Reach s) :
    (s.planner.inFlight.map Prod.fst).Nodup := by
  induction reach with
  | refl => exact .nil
  | @tail s s' _ step held =>
    obtain ⟨p, past⟩ := s
    cases step.change with
    | refused => exact held
    | requested key term phase lawful => exact held
    | selected courseId typeKey choice next loaded free tried =>
      exact nodup_keys_setValue _ _ held
    | failed request e handed => exact nodup_keys_inFlightAfter request held
    | applied request r handed latest newer => exact nodup_keys_inFlightAfter request held
    | superseded request r handed old => exact nodup_keys_inFlightAfter request held
    | activated courseId known => exact held
    | staleTaken => exact held

theorem Reach.mem_inFlight_iff {s : Session} (reach : Reach s) {group : Int × String} {n : Nat} :
    (group, n) ∈ s.planner.inFlight ↔ Outstanding s.history group n := by
  rw [mem_iff_valueOf? reach.nodup_inFlight]
  exact reach.guarded group n

theorem Reach.waits_unique {s : Session} (reach : Reach s) {pending other : PendingSelection}
    (waits : s.history.Waits pending) (waits' : s.history.Waits other)
    (same : (pending.courseId, pending.typeKey) = (other.courseId, other.typeKey)) :
    pending = other := by
  have held := (reach.guarded _ _).mpr (outstanding_of_waits waits)
  have held' := (reach.guarded _ _).mpr (outstanding_of_waits waits')
  rw [← same, held] at held'
  have one := reach.numbered.eq_of_seq waits.1 waits'.1 (Option.some.inj held')
  exact Request.selection.inj one

/-! ## What frees a group -/

theorem inFlight_completeSelection (p : Planner) (pending : PendingSelection)
    (reply : Except Store.Error PlanRecord) :
    (p.completeSelection pending reply).2.inFlight = p.inFlightAfter (.selection pending) := by
  rw [completeSelection, complete_inFlight, release_eq]

/-- The answer to a change that waits takes the entry of its group away, and no other. -/
theorem Reach.mem_inFlight_completeSelection {s : Session} (reach : Reach s)
    {pending : PendingSelection} (waits : s.history.Waits pending)
    (reply : Except Store.Error PlanRecord) {entry : (Int × String) × Nat} :
    entry ∈ (s.planner.completeSelection pending reply).2.inFlight ↔
      entry ∈ s.planner.inFlight ∧ entry.1 ≠ (pending.courseId, pending.typeKey) := by
  have held := (reach.guarded _ _).mpr (outstanding_of_waits waits)
  rw [inFlight_completeSelection, inFlightAfter, if_pos held, dropValue, List.mem_filter,
    decide_eq_true_iff]

/-- A change that was completed before holds no entry, so its group may be that of a newer one. -/
theorem Reach.inFlight_completed_again {s : Session} (reach : Reach s)
    {pending : PendingSelection} (completed : .selection pending ∈ s.history.completions)
    (reply : Except Store.Error PlanRecord) :
    (s.planner.completeSelection pending reply).2.inFlight = s.planner.inFlight := by
  have handed : .selection pending ∈ s.history.requests := reach.numbered.handed _ completed
  have free : valueOf? (pending.courseId, pending.typeKey) s.planner.inFlight ≠
      some pending.ticket.seq := by
    intro held
    obtain ⟨other, member, unanswered, -, number⟩ := (reach.guarded _ _).mp held
    rw [reach.numbered.eq_of_seq member handed number] at unanswered
    exact unanswered completed
  rw [inFlight_completeSelection, inFlightAfter, if_neg free]

theorem valueOf?_inFlightAfter_or {p : Planner} (request : Request) {group : Int × String}
    {n : Nat} (held : valueOf? group p.inFlight = some n) :
    valueOf? group (p.inFlightAfter request) = some n ∨
      ∃ pending, request = .selection pending ∧ (pending.courseId, pending.typeKey) = group ∧
        pending.ticket.seq = n := by
  cases request with
  | plain ticket => exact .inl held
  | selection pending =>
    by_cases own : (pending.courseId, pending.typeKey) = group ∧ pending.ticket.seq = n
    · exact .inr ⟨pending, rfl, own⟩
    · exact .inl (Guarded.valueOf?_inFlightAfter.mpr ⟨held, own⟩)

/-- A step keeps an entry unless it answers the change that holds it. -/
theorem Change.keeps_entry {p : Planner} {past : History} {s : Session} (change : Change p past s)
    {group : Int × String} {n : Nat} (held : valueOf? group p.inFlight = some n) :
    valueOf? group s.planner.inFlight = some n ∨
      ∃ pending reply result,
        s.history = .answered (.selection pending) reply result :: past ∧
          (pending.courseId, pending.typeKey) = group ∧ pending.ticket.seq = n := by
  have answered : ∀ request reply result,
      valueOf? group (p.inFlightAfter request) = some n ∨
        ∃ pending reply' result', (.answered request reply result :: past : History) =
            .answered (.selection pending) reply' result' :: past ∧
          (pending.courseId, pending.typeKey) = group ∧ pending.ticket.seq = n := by
    intro request reply result
    refine (valueOf?_inFlightAfter_or request held).imp_right ?_
    rintro ⟨pending, rfl, of_group, number⟩
    exact ⟨pending, reply, result, rfl, of_group, number⟩
  cases change with
  | refused => exact .inl held
  | requested key term phase lawful => exact .inl held
  | selected courseId typeKey choice next loaded free tried =>
    refine .inl ?_
    have other : (courseId, typeKey) ≠ group := by
      rintro rfl
      rw [isMutating, held] at free
      cases free
    rw [valueOf?_setValue, if_neg other]
    exact held
  | failed request e handed => exact answered request _ _
  | applied request r handed latest newer => exact answered request _ _
  | superseded request r handed old => exact answered request _ _
  | activated courseId known => exact .inl held
  | staleTaken => exact .inl held

/-! ## The gate -/

/-- What holds of the groups in flight in every run. A change is completed when the planner has
taken its answer as that of a selection change; the completion of its bare ticket frees nothing. -/
structure Gate (s : Session) : Prop where
  /-- The entries are the changes that wait for their answer, with their numbers. -/
  entries : ∀ group n, (group, n) ∈ s.planner.inFlight ↔ Outstanding s.history group n
  nodup : (s.planner.inFlight.map Prod.fst).Nodup
  single : ∀ pending other, s.history.Waits pending → s.history.Waits other →
    (pending.courseId, pending.typeKey) = (other.courseId, other.typeKey) → pending = other
  busy : s.planner.isLoaded = true → ∀ courseId typeKey choice,
    s.planner.beginSelection courseId typeKey choice = .error (.busy courseId typeKey) ↔
      ∃ pending, s.history.Waits pending ∧
        (pending.courseId, pending.typeKey) = (courseId, typeKey)
  /-- Whatever the answer to a change is, it frees the group of the change and no other. -/
  frees : ∀ pending, s.history.Waits pending → ∀ reply entry,
    entry ∈ (s.planner.completeSelection pending reply).2.inFlight ↔
      entry ∈ s.planner.inFlight ∧ entry.1 ≠ (pending.courseId, pending.typeKey)
  /-- A change that is completed again frees nothing, though a newer one may hold its group. -/
  again : ∀ pending, .selection pending ∈ s.history.completions → ∀ reply,
    (s.planner.completeSelection pending reply).2.inFlight = s.planner.inFlight
  /-- Whatever plan comes as the answer to another request, it frees nothing. -/
  plain : ∀ ticket reply, (s.planner.complete ticket reply).2.inFlight = s.planner.inFlight
  /-- A group stays in flight until the change that holds it is answered. -/
  kept : ∀ s', Step s s' → ∀ entry ∈ s.planner.inFlight,
    entry ∈ s'.planner.inFlight ∨ ∃ pending reply result,
      s'.history = .answered (.selection pending) reply result :: s.history ∧
        ((pending.courseId, pending.typeKey), pending.ticket.seq) = entry

/-- In every run the groups in flight are guarded by the changes that wait for their answers. -/
theorem in_flight_gate {s : Session} (reach : Reach s) : Gate s where
  entries := fun group n => reach.mem_inFlight_iff
  nodup := reach.nodup_inFlight
  single := fun pending other waits waits' same => reach.waits_unique waits waits' same
  busy := by
    intro loaded courseId typeKey choice
    rw [beginSelection_eq_busy_iff loaded, isMutating, Option.isSome_iff_exists]
    constructor
    · rintro ⟨n, held⟩
      obtain ⟨pending, handed, unanswered, of_group, -⟩ := (reach.guarded _ n).mp held
      exact ⟨pending, ⟨handed, unanswered⟩, of_group⟩
    · rintro ⟨pending, waits, of_group⟩
      exact ⟨_, of_group ▸ (reach.guarded _ _).mpr (outstanding_of_waits waits)⟩
  frees := fun pending waits reply entry => reach.mem_inFlight_completeSelection waits reply
  again := fun pending completed reply => reach.inFlight_completed_again completed reply
  plain := complete_inFlight s.planner
  kept := by
    rintro s' step ⟨group, n⟩ member
    have held := (mem_iff_valueOf? reach.nodup_inFlight).mp member
    rcases step.change.keeps_entry held with stays | ⟨pending, reply, result, last, own, number⟩
    · have after : Reach s' := reach.tail step
      exact .inl ((mem_iff_valueOf? after.nodup_inFlight).mpr stays)
    · exact .inr ⟨pending, reply, result, last, Prod.ext own number⟩

/-! ## A run -/

/-- The first change of a group, and the second one. -/
def selectChange : PendingSelection := ⟨⟨.selection 1 "L", 2, some "202620"⟩, 1, "L", [11]⟩

def clearChange : PendingSelection := ⟨⟨.selection 1 "L", 3, some "202620"⟩, 1, "L", []⟩

/-- The first change is answered. -/
def selectedOnce : Session :=
  let loaded := (new.beginLoad none).answer (.plain ⟨.plan, 1, none⟩) (.ok (sample false))
  (loaded.beginSelection 1 "L" (some 11)).answer (.selection selectChange) (.ok (sample true))

theorem reach_selectedOnce : Reach selectedOnce := by
  refine .tail (.tail (.tail (.tail .refl (.beginLoad _)) (.complete _ _ ?_))
    (.beginSelection _ _ _)) (.completeSelection _ _ ?_)
  · exact List.mem_cons_self
  · show _ ∈ _
    decide

/-- The first change is answered, and the second one is on its way. -/
def reselected : Session := selectedOnce.beginSelection 1 "L" none

theorem reach_reselected : Reach reselected :=
  reach_selectedOnce.tail (.beginSelection 1 "L" none)

/-- The group is busy, and completing the first change once more leaves it to the second. -/
theorem in_flight_gate_reselected :
    reselected.history.Waits clearChange ∧
      reselected.planner.beginSelection 1 "L" (some 11) = .error (.busy 1 "L") ∧
      ((1, "L"), 3) ∈
        (reselected.planner.completeSelection selectChange (.ok (sample true))).2.inFlight := by
  have waits : reselected.history.Waits clearChange := by decide
  have gate := in_flight_gate reach_reselected
  refine ⟨waits, (gate.busy (by decide) 1 "L" (some 11)).mpr ⟨clearChange, waits, rfl⟩, ?_⟩
  rw [gate.again selectChange (by decide)]
  exact (gate.entries (1, "L") 3).mpr (outstanding_of_waits waits)

end Session

end Timetable.Planner
