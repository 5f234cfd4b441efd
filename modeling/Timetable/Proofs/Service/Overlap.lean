import Mathlib.Logic.Relation
import Timetable.Proofs.Service.Interleaving
import Timetable.Proofs.Store.Selection

/-!
# Two selection changes that overlap

Two changes of different type groups are on their way together. What is sent for each is the
selection of its whole course, read off the held plan when the change begins; the gate before a
group does not keep the other groups of the course. So of two changes of one course the store is
left with what it served last, and the other change is undone (`Mirrors.chosen?_select`).

`Race` is such a pair of changes between two steps, `Raced` the invariant of their runs. Main
statements: `overlapping_changes_kept_iff` says when both changes survive, and
`overlapping_change_lost` is a run in which both are applied and one is gone.
-/

namespace Timetable.Service

/-- A change of the selection of one type group. -/
structure Edit where
  courseId : Int
  typeKey : String
  choice : Option Int

namespace Edit

def group (e : Edit) : Int × String := (e.courseId, e.typeKey)

/-- A plan has in the group what is asked for. -/
def InPlan (e : Edit) (plan : Plan) : Prop :=
  plan.chosen? e.courseId e.typeKey = some e.choice.toList

/-- A store has in the group what is asked for. -/
def InStore (e : Edit) (m : Store.Memory) : Prop :=
  m.chosen? e.courseId e.typeKey = some e.choice.toList

instance (e : Edit) (plan : Plan) : Decidable (e.InPlan plan) := inferInstanceAs (Decidable (_ = _))

instance (e : Edit) (m : Store.Memory) : Decidable (e.InStore m) :=
  inferInstanceAs (Decidable (_ = _))

/-- A plan accepts the change. -/
def Accepted (e : Edit) (plan : Plan) : Prop :=
  ∃ next, plan.trySelect e.courseId e.typeKey e.choice = .ok next

/-- What is sent to the store for a change of a plan. -/
def call (e : Edit) (plan : Plan) : Store.Call .plan :=
  .selectSections e.courseId
    (plan.courseSelection e.courseId (plan.select e.courseId e.typeKey e.choice))

/-- How a store answers the change. -/
def reply (e : Edit) (plan : Plan) (m : Store.Memory) : Store.Reply .plan :=
  (m.serve (e.call plan)).1

/-- The store after the change. -/
def after (e : Edit) (plan : Plan) (m : Store.Memory) : Store.Memory := (m.serve (e.call plan)).2

end Edit

/-! ## What the store is left with -/

section Served

variable {plan : Plan} {m m' : Store.Memory} {e e' : Edit} {r : PlanRecord}

theorem Edit.selectSections_of_reply (served : e.reply plan m = .ok r) :
    m.selectSections e.courseId
        (plan.courseSelection e.courseId (plan.select e.courseId e.typeKey e.choice)) =
      .ok (e.after plan m) := by
  simp only [Edit.reply, Edit.after, Edit.call, Store.Memory.serve] at served ⊢
  cases selected : m.selectSections e.courseId
      (plan.courseSelection e.courseId (plan.select e.courseId e.typeKey e.choice)) with
  | error e => rw [selected] at served; cases served
  | ok after => rfl

theorem Edit.mirrors_after (mirrors : Store.Mirrors plan m)
    (served : e.reply plan m = .ok r) : Store.Mirrors plan (e.after plan m) :=
  mirrors.select (Edit.selectSections_of_reply served)

/-- In the course of a change that was served every group but its own is as the plan has it. -/
theorem Edit.chosen?_after (mirrors : Store.Mirrors plan m) (distinct : plan.sectionIds.Nodup)
    (accepted : e.Accepted plan) (served : e.reply plan m = .ok r) (key : String) :
    (e.after plan m).chosen? e.courseId key =
      if key = e.typeKey then some e.choice.toList else plan.chosen? e.courseId key := by
  obtain ⟨next, tried⟩ := accepted
  have sent : plan.select e.courseId e.typeKey e.choice = next := by
    rw [Plan.select, tried]
  have selected := Edit.selectSections_of_reply served
  rw [sent] at selected
  exact mirrors.chosen?_select distinct tried selected key

theorem Edit.inStore_after (mirrors : Store.Mirrors plan m) (distinct : plan.sectionIds.Nodup)
    (accepted : e.Accepted plan) (served : e.reply plan m = .ok r) :
    e.InStore (e.after plan m) := by
  rw [Edit.InStore, Edit.chosen?_after mirrors distinct accepted served, if_pos rfl]

/-- A change of another group of the course sends what the plan holds of the group. -/
theorem Edit.chosen?_after_sibling (mirrors : Store.Mirrors plan m)
    (distinct : plan.sectionIds.Nodup) (apart : e.group ≠ e'.group)
    (accepted : e'.Accepted plan) (served : e'.reply plan m = .ok r)
    (same : e.courseId = e'.courseId) :
    (e'.after plan m).chosen? e.courseId e.typeKey = plan.chosen? e.courseId e.typeKey := by
  have other : e.typeKey ≠ e'.typeKey := fun keyed => apart (Prod.ext same keyed)
  have carried := Edit.chosen?_after mirrors distinct accepted served e.typeKey
  rwa [if_neg other, ← same] at carried

theorem Edit.chosen?_after_of_ne (served : e'.reply plan m = .ok r)
    (other : e.courseId ≠ e'.courseId) :
    (e'.after plan m).chosen? e.courseId e.typeKey = m.chosen? e.courseId e.typeKey :=
  Store.Memory.chosen?_select_other (Edit.selectSections_of_reply served) other e.typeKey

/-- So it undoes a change of the group, unless that change asked for what the plan had. -/
theorem Edit.inStore_overtaken (mirrors : Store.Mirrors plan m) (distinct : plan.sectionIds.Nodup)
    (apart : e.group ≠ e'.group) (accepted : e'.Accepted plan) (before : e.InStore m)
    (served : e'.reply plan m = .ok r) :
    e.InStore (e'.after plan m) ↔ e.courseId ≠ e'.courseId ∨ e.InPlan plan := by
  by_cases same : e.courseId = e'.courseId
  · rw [Edit.InStore, Edit.chosen?_after_sibling mirrors distinct apart accepted served same]
    exact ⟨.inr, fun kept => kept.resolve_left (not_not_intro same)⟩
  · rw [Edit.InStore, Edit.chosen?_after_of_ne served same]
    exact iff_of_true before (.inl same)

/-- The plan that the store answers with has what the store has. -/
theorem Edit.inPlan_of_inStore (mirrors : Store.Mirrors plan m) (accepted : e.Accepted plan)
    (held : e.InStore m) : e.InPlan (.ofRecord m.snapshot) := by
  obtain ⟨next, tried⟩ := accepted
  obtain ⟨c, found, -, -⟩ := Plan.trySelect_eq_ok_iff.mp tried
  rw [Edit.InPlan, mirrors.chosen?_snapshot found, held]
  cases e.choice <;> rfl

/-- The plan that answers a change has every other group as the plan before it. -/
theorem Edit.chosen?_ofRecord_after (held : plan = .ofRecord m.snapshot)
    (mirrors : Store.Mirrors plan m) (distinct : plan.sectionIds.Nodup)
    (apart : e.group ≠ e'.group) (accepted : e.Accepted plan) (accepted' : e'.Accepted plan)
    (served : e'.reply plan m = .ok r) :
    (Plan.ofRecord (e'.after plan m).snapshot).chosen? e.courseId e.typeKey =
      plan.chosen? e.courseId e.typeKey := by
  obtain ⟨next, tried⟩ := accepted
  obtain ⟨c, found, -, -⟩ := Plan.trySelect_eq_ok_iff.mp tried
  have before : plan.chosen? e.courseId e.typeKey =
      (m.chosen? e.courseId e.typeKey).map (List.take 1) :=
    (congrArg (·.chosen? e.courseId e.typeKey) held).trans (mirrors.chosen?_snapshot found _)
  rw [(Edit.mirrors_after mirrors served).chosen?_snapshot found]
  by_cases same : e.courseId = e'.courseId
  · rw [Edit.chosen?_after_sibling mirrors distinct apart accepted' served same, before,
      Option.map_map]
    -- The plan has one section of the group at most, so nothing is dropped on reading it again.
    refine congrArg (Option.map · _) (funext fun ids => ?_)
    rw [Function.comp_apply, List.take_take, Nat.min_self]
  · rw [Edit.chosen?_after_of_ne served same, before]

section Both

variable {r' : PlanRecord} (held : plan = .ofRecord m.snapshot) (mirrors : Store.Mirrors plan m)
  (distinct : plan.sectionIds.Nodup) (apart : e.group ≠ e'.group) (accepted : e.Accepted plan)
  (accepted' : e'.Accepted plan) (first : e.reply plan m = .ok r)
  (second : e'.reply plan (e.after plan m) = .ok r')
include mirrors distinct apart accepted accepted' first second

/-- The answers land in the order in which the store gave them. -/
theorem Edit.kept_iff_of_order :
    (e.InStore (e'.after plan (e.after plan m)) ∧
        e.InPlan (.ofRecord (e'.after plan (e.after plan m)).snapshot)) ∧
      (e'.InStore (e'.after plan (e.after plan m)) ∧
        e'.InPlan (.ofRecord (e'.after plan (e.after plan m)).snapshot)) ↔
      e.courseId ≠ e'.courseId ∨ e.InPlan plan := by
  have between := Edit.mirrors_after mirrors first
  have after := Edit.mirrors_after between second
  have last := Edit.inStore_after between distinct accepted' second
  have before := Edit.inStore_after mirrors distinct accepted first
  rw [← Edit.inStore_overtaken between distinct apart accepted' before second]
  exact ⟨fun kept => kept.1.1, fun kept => ⟨⟨kept, Edit.inPlan_of_inStore after accepted kept⟩,
    last, Edit.inPlan_of_inStore after accepted' last⟩⟩

include held in
/-- The answer that the store gave first lands last. -/
theorem Edit.kept_iff_of_reverse :
    (e.InStore (e'.after plan (e.after plan m)) ∧
        e.InPlan (.ofRecord (e.after plan m).snapshot)) ∧
      (e'.InStore (e'.after plan (e.after plan m)) ∧
        e'.InPlan (.ofRecord (e.after plan m).snapshot)) ↔
      (e.courseId ≠ e'.courseId ∨ e.InPlan plan) ∧ e'.InPlan plan := by
  have between := Edit.mirrors_after mirrors first
  have last := Edit.inStore_after between distinct accepted' second
  have before := Edit.inStore_after mirrors distinct accepted first
  have landed := Edit.inPlan_of_inStore between accepted before
  have unserved : e'.InPlan (.ofRecord (e.after plan m).snapshot) ↔ e'.InPlan plan := by
    rw [Edit.InPlan, Edit.chosen?_ofRecord_after held mirrors distinct apart.symm accepted' accepted
      first, Edit.InPlan]
  rw [← Edit.inStore_overtaken between distinct apart accepted' before second, unserved]
  exact ⟨fun kept => ⟨kept.1.1, kept.2.2⟩, fun kept => ⟨⟨kept.1, landed⟩, last, kept.2⟩⟩

end Both

end Served

/-! ## Runs of two changes -/

/-- Where a change stands. -/
inductive Leg where
  | ahead
  /-- Its call is on the way to the store. -/
  | sent (pending : PendingSelection)
  /-- The answer is on the way to the planner. -/
  | answered (pending : PendingSelection) (reply : Store.Reply .plan)
  | landed (result : Except PlannerError Outcome)

/-- A planner, its store, and two changes that run over them. -/
structure Race where
  planner : Planner
  store : Store.Memory
  leg : Bool → Leg
  /-- The changes that the store has served, the last one first. -/
  served : List Bool
  /-- The changes whose answers have reached the planner, the last one first. -/
  landed : List Bool

namespace Race

/-- Neither change has begun. -/
def start (p : Planner) (m : Store.Memory) : Race := ⟨p, m, fun _ => .ahead, [], []⟩

variable (edits : Bool → Edit)

/-- One step of one of the two changes, or something else at the planner that leaves the held plan.
A change begins while the other one has not been completed. -/
inductive Step (s : Race) : Race → Prop
  | begin (i : Bool) (pending : PendingSelection) (q : Planner) :
    s.leg i = .ahead → (∀ result, s.leg (!i) ≠ .landed result) →
    s.planner.beginSelection (edits i).courseId (edits i).typeKey (edits i).choice =
      .ok (pending, q) →
    Step s { s with planner := q, leg := Function.update s.leg i (.sent pending) }
  | serve (i : Bool) (pending : PendingSelection) :
    s.leg i = .sent pending →
    Step s
      { s with
        store := (s.store.serve (.selectSections pending.courseId pending.sectionIds)).2
        leg := Function.update s.leg i
          (.answered pending
            (s.store.serve (.selectSections pending.courseId pending.sectionIds)).1)
        served := i :: s.served }
  | land (i : Bool) (pending : PendingSelection) (reply : Store.Reply .plan) :
    s.leg i = .answered pending reply →
    Step s
      { s with
        planner := (s.planner.completeSelection pending reply).2
        leg := Function.update s.leg i (.landed (s.planner.completeSelection pending reply).1)
        landed := i :: s.landed }
  | pass (q : Planner) : q.plan = s.planner.plan → Step s { s with planner := q }

/-- Any number of steps. -/
abbrev Run : Race → Race → Prop := Relation.ReflTransGen (Step edits)

/-- The store after it served changes of a plan, the last one first. -/
def storeAfter (plan : Plan) (m : Store.Memory) : List Bool → Store.Memory
  | [] => m
  | i :: earlier => (edits i).after plan (storeAfter plan m earlier)

/-- How the store answered a change, given those that it had served before. -/
def replyAfter (plan : Plan) (m : Store.Memory) (earlier : List Bool) (i : Bool) :
    Store.Reply .plan :=
  (edits i).reply plan (storeAfter edits plan m earlier)

/-- What is known of a change from where it stands. -/
inductive Sound (plan : Plan) (m : Store.Memory) (s : Race) (i : Bool) : Leg → Prop
  | ahead : i ∉ s.served → i ∉ s.landed → Sound plan m s i .ahead
  | sent {pending : PendingSelection} :
    i ∉ s.served → i ∉ s.landed → (edits i).Accepted plan →
    .selectSections pending.courseId pending.sectionIds = (edits i).call plan →
    Sound plan m s i (.sent pending)
  | answered {pending : PendingSelection} {earlier : List Bool} :
    i ∉ s.landed → (edits i).Accepted plan → (i :: earlier) <:+ s.served →
    Sound plan m s i (.answered pending (replyAfter edits plan m earlier i))
  | applied {earlier : List Bool} :
    i ∈ s.landed → (edits i).Accepted plan → (i :: earlier) <:+ s.served →
    replyAfter edits plan m earlier i = .ok (storeAfter edits plan m (i :: earlier)).snapshot →
    Sound plan m s i (.landed (.ok .applied))
  | dropped {result : Except PlannerError Outcome} :
    i ∈ s.landed → result ≠ .ok .applied → Sound plan m s i (.landed result)

/-- What holds of every state of a run: what was sent is read off the plan at the beginning, and the
held plan is the one that was applied last. -/
structure Raced (plan : Plan) (m : Store.Memory) (s : Race) : Prop where
  store : s.store = storeAfter edits plan m s.served
  served : s.served.Nodup
  landed : s.landed.Nodup
  sound : ∀ i, Sound edits plan m s i (s.leg i)
  unapplied : s.landed = [] → s.planner.plan = plan
  applied : ∀ i rest, s.landed = i :: rest → s.leg i = .landed (.ok .applied) →
    ∃ earlier, (i :: earlier) <:+ s.served ∧
      s.planner.plan = .ofRecord (storeAfter edits plan m (i :: earlier)).snapshot

variable {edits} {plan : Plan} {m : Store.Memory} {s s' : Race} {i : Bool}

theorem Sound.keep {leg : Leg} (sound : Sound edits plan m s i leg)
    (served : s.served <:+ s'.served) (unserved : i ∈ s'.served → i ∈ s.served)
    (landed : i ∈ s'.landed ↔ i ∈ s.landed) : Sound edits plan m s' i leg := by
  cases sound with
  | ahead fresh waiting => exact .ahead (fresh ∘ unserved) (waiting ∘ landed.mp)
  | sent fresh waiting accepted calls =>
    exact .sent (fresh ∘ unserved) (waiting ∘ landed.mp) accepted calls
  | answered waiting accepted since =>
    exact .answered (waiting ∘ landed.mp) accepted (since.trans served)
  | applied came accepted since given =>
    exact .applied (landed.mpr came) accepted (since.trans served) given
  | dropped came other => exact .dropped (landed.mpr came) other

theorem Sound.not_mem_landed {leg : Leg} (sound : Sound edits plan m s i leg)
    (waits : ∀ result, leg ≠ .landed result) : i ∉ s.landed := by
  cases sound with
  | ahead _ waiting => exact waiting
  | sent _ waiting => exact waiting
  | answered waiting => exact waiting
  | applied => exact absurd rfl (waits _)
  | dropped => exact absurd rfl (waits _)

/-- A step of one change leaves what is known of the other. -/
theorem Raced.sound_update {leg : Leg} (raced : Raced edits plan m s)
    (own : Sound edits plan m s' i leg) (served : s.served <:+ s'.served)
    (unserved : ∀ j ≠ i, j ∈ s'.served → j ∈ s.served)
    (landed : ∀ j ≠ i, (j ∈ s'.landed ↔ j ∈ s.landed)) (j : Bool) :
    Sound edits plan m s' j (Function.update s.leg i leg j) := by
  by_cases same : j = i
  · subst same
    rw [Function.update_self]
    exact own
  · rw [Function.update_of_ne same]
    exact (raced.sound j).keep served (unserved j same) (landed j same)

theorem Raced.begin (raced : Raced edits plan m s) {pending : PendingSelection} {q : Planner}
    (here : s.leg i = .ahead) (other : ∀ result, s.leg (!i) ≠ .landed result)
    (begun : s.planner.beginSelection (edits i).courseId (edits i).typeKey (edits i).choice =
      .ok (pending, q)) :
    Raced edits plan m { s with planner := q, leg := Function.update s.leg i (.sent pending) } := by
  obtain ⟨fresh, waiting⟩ : i ∉ s.served ∧ i ∉ s.landed := by
    have sound := raced.sound i
    rw [here] at sound
    cases sound with
    | ahead fresh waiting => exact ⟨fresh, waiting⟩
  have none_landed : s.landed = [] := by
    refine List.eq_nil_iff_forall_not_mem.mpr fun j among => ?_
    by_cases same : j = i
    · exact waiting (same ▸ among)
    · obtain rfl : j = !i := Bool.eq_not_of_ne same
      exact (raced.sound (!i)).not_mem_landed other among
  obtain ⟨-, -, next, tried, rfl, rfl⟩ := Planner.beginSelection_eq_ok_iff.mp begun
  have held := raced.unapplied none_landed
  rw [held] at tried
  have calls : .selectSections (edits i).courseId
      (s.planner.plan.courseSelection (edits i).courseId next) = (edits i).call plan := by
    rw [Edit.call, Plan.select, tried, held]
  constructor
  case store => exact raced.store
  case served => exact raced.served
  case landed => exact raced.landed
  case sound =>
    exact raced.sound_update (.sent fresh waiting ⟨next, tried⟩ calls) List.suffix_rfl
      (fun _ _ => id) fun _ _ => .rfl
  case unapplied => exact fun _ => held
  case applied =>
    intro j rest first
    rw [none_landed] at first
    cases first

theorem Raced.serve (raced : Raced edits plan m s) {pending : PendingSelection}
    (here : s.leg i = .sent pending) :
    Raced edits plan m
      { s with
        store := (s.store.serve (.selectSections pending.courseId pending.sectionIds)).2
        leg := Function.update s.leg i
          (.answered pending
            (s.store.serve (.selectSections pending.courseId pending.sectionIds)).1)
        served := i :: s.served } := by
  obtain ⟨fresh, waiting, accepted, calls⟩ : i ∉ s.served ∧ i ∉ s.landed ∧
      (edits i).Accepted plan ∧
      .selectSections pending.courseId pending.sectionIds = (edits i).call plan := by
    have sound := raced.sound i
    rw [here] at sound
    cases sound with
    | sent fresh waiting accepted calls => exact ⟨fresh, waiting, accepted, calls⟩
  rw [calls, raced.store]
  constructor
  case store => rfl
  case served => exact List.nodup_cons.mpr ⟨fresh, raced.served⟩
  case landed => exact raced.landed
  case sound =>
    refine raced.sound_update (.answered waiting accepted List.suffix_rfl)
      (List.suffix_cons i s.served) ?_ fun _ _ => .rfl
    exact fun j apart among => (List.mem_cons.mp among).resolve_left apart
  case unapplied => exact raced.unapplied
  case applied =>
    intro j rest first applied
    have came : j ∈ s.landed := first ▸ List.mem_cons_self
    have apart : j ≠ i := fun same => waiting (same ▸ came)
    replace applied : Function.update s.leg i _ j = .landed (.ok .applied) := applied
    rw [Function.update_of_ne apart] at applied
    obtain ⟨earlier, since, held⟩ := raced.applied j rest first applied
    exact ⟨earlier, since.trans (List.suffix_cons i s.served), held⟩

/-- An answer that is applied is the plan that the store held after the change. -/
theorem answer_applied {p : Planner} {pending : PendingSelection} {earlier : List Bool}
    (applied : (p.completeSelection pending (replyAfter edits plan m earlier i)).1 =
      .ok .applied) :
    replyAfter edits plan m earlier i = .ok (storeAfter edits plan m (i :: earlier)).snapshot ∧
      (p.completeSelection pending (replyAfter edits plan m earlier i)).2.plan =
        .ofRecord (storeAfter edits plan m (i :: earlier)).snapshot := by
  cases given : replyAfter edits plan m earlier i with
  | error e =>
    rw [given, Planner.completeSelection, Planner.complete_error] at applied
    cases applied
  | ok r =>
    rw [given] at applied
    have snapshot : (storeAfter edits plan m (i :: earlier)).snapshot = r :=
      Store.Memory.serve_ok given
    have lands : Lands p _ r _ (p.completeSelection pending (.ok r)).1 :=
      answer_lands p (.selection pending) r
    rw [applied] at lands
    cases lands with
    | applied _ held => exact ⟨congrArg Except.ok snapshot.symm, snapshot ▸ held⟩

theorem Raced.land (raced : Raced edits plan m s) {pending : PendingSelection}
    {reply : Store.Reply .plan} (here : s.leg i = .answered pending reply) :
    Raced edits plan m
      { s with
        planner := (s.planner.completeSelection pending reply).2
        leg := Function.update s.leg i (.landed (s.planner.completeSelection pending reply).1)
        landed := i :: s.landed } := by
  obtain ⟨earlier, waiting, accepted, since, rfl⟩ : ∃ earlier, i ∉ s.landed ∧
      (edits i).Accepted plan ∧ (i :: earlier) <:+ s.served ∧
      reply = replyAfter edits plan m earlier i := by
    have sound := raced.sound i
    rw [here] at sound
    cases sound with
    | answered waiting accepted since => exact ⟨_, waiting, accepted, since, rfl⟩
  constructor
  case store => exact raced.store
  case served => exact raced.served
  case landed => exact List.nodup_cons.mpr ⟨waiting, raced.landed⟩
  case sound =>
    refine raced.sound_update ?_ List.suffix_rfl (fun _ _ => id) fun j apart =>
      ⟨fun among => (List.mem_cons.mp among).resolve_left apart, List.mem_cons_of_mem i⟩
    by_cases applied : (s.planner.completeSelection pending
        (replyAfter edits plan m earlier i)).1 = .ok .applied
    · rw [applied]
      exact .applied List.mem_cons_self accepted since (answer_applied applied).1
    · exact .dropped List.mem_cons_self applied
  case unapplied => exact fun none_landed => by cases none_landed
  case applied =>
    intro j rest first applied
    obtain ⟨rfl, -⟩ := List.cons.inj first
    replace applied : Function.update s.leg i _ i = .landed (.ok .applied) := applied
    rw [Function.update_self] at applied
    exact ⟨earlier, since, (answer_applied (Leg.landed.inj applied)).2⟩

theorem Raced.step (raced : Raced edits plan m s) (step : Step edits s s') :
    Raced edits plan m s' := by
  cases step with
  | begin i pending q here other begun => exact raced.begin here other begun
  | serve i pending here => exact raced.serve here
  | land i pending reply here => exact raced.land here
  | pass q same =>
    exact
      { store := raced.store
        served := raced.served
        landed := raced.landed
        sound := fun i => (raced.sound i).keep List.suffix_rfl id .rfl
        unapplied := fun none_landed => same.trans (raced.unapplied none_landed)
        applied := fun i rest first applied => by
          obtain ⟨earlier, since, held⟩ := raced.applied i rest first applied
          exact ⟨earlier, since, same.trans held⟩ }

theorem Run.raced {p : Planner} (run : Run edits (start p m) s) :
    Raced edits p.plan m s := by
  induction run with
  | refl =>
    exact
      { store := rfl
        served := .nil
        landed := .nil
        sound := fun i => .ahead List.not_mem_nil List.not_mem_nil
        unapplied := fun _ => rfl
        applied := nofun }
  | tail _ step raced => exact raced.step step

end Race

/-! ## When both changes survive -/

/-- A list that has both changes once begins with one of them and ends with the other. -/
theorem eq_pair_of_nodup {l : List Bool} (distinct : l.Nodup) (all : ∀ i, i ∈ l) :
    ∃ i, l = [i, !i] := by
  cases l with
  | nil => exact absurd (all true) List.not_mem_nil
  | cons i rest =>
    obtain ⟨fresh, distinct⟩ := List.nodup_cons.mp distinct
    have others : ∀ j ∈ rest, j = !i := fun j among =>
      Bool.eq_not_of_ne fun same => fresh (same ▸ among)
    have other : (!i) ∈ rest := (List.mem_cons.mp (all !i)).resolve_left (Bool.not_eq_self i).mp
    cases rest with
    | nil => exact absurd other List.not_mem_nil
    | cons j rest =>
      obtain rfl := others j List.mem_cons_self
      obtain ⟨apart, -⟩ := List.nodup_cons.mp distinct
      have none_left : rest = [] := List.eq_nil_iff_forall_not_mem.mpr fun k among =>
        apart (others k (List.mem_cons_of_mem _ among) ▸ among)
      exact ⟨i, by rw [none_left]⟩

theorem suffix_pair {i j : Bool} {rest : List Bool} (since : (j :: rest) <:+ [i, !i]) :
    j = i ∧ rest = [!i] ∨ j = !i ∧ rest = [] := by
  rcases List.suffix_cons_iff.mp since with whole | since
  · exact .inl (List.cons.inj whole)
  · rcases List.suffix_cons_iff.mp since with whole | since
    · exact .inr (List.cons.inj whole)
    · cases List.suffix_nil.mp since

theorem forall_bool_iff {P : Bool → Prop} (i : Bool) : (∀ j, P j) ↔ P (!i) ∧ P i := by
  cases i <;> simp [Bool.forall_bool, and_comm]

/-- The answer to each change was applied, so the store has served it. -/
theorem Race.Raced.served_of_applied {edits : Bool → Edit} {plan : Plan} {m : Store.Memory}
    {s : Race} (raced : Race.Raced edits plan m s) {i : Bool}
    (applied : s.leg i = .landed (.ok .applied)) :
    i ∈ s.landed ∧ (edits i).Accepted plan ∧ ∃ earlier, (i :: earlier) <:+ s.served ∧
      Race.replyAfter edits plan m earlier i =
        .ok (Race.storeAfter edits plan m (i :: earlier)).snapshot := by
  have known := raced.sound i
  rw [applied] at known
  cases known with
  | applied came accepted since given => exact ⟨came, accepted, _, since, given⟩
  | dropped _ other => exact absurd rfl other

/-- A course with a lecture and a recitation, neither selected. -/
def twoKinds : Store.Memory :=
  .ofSeed
    { plan :=
        { term := some "202620"
          courses :=
            [{ id := 1, code := "CS 1713", term := "202620"
               sections :=
                [{ id := 11, courseId := 1, code := "L1" },
                 { id := 13, courseId := 1, code := "R1" }] }] } }

/-- The planner has loaded it. -/
def twoKindsPlanner : Planner :=
  ((Planner.new.beginLoad none).2.complete (Planner.new.beginLoad none).1
    (.ok twoKinds.snapshot)).2

/-- The lecture is selected, and the recitation is. -/
def twoEdits : Bool → Edit
  | false => ⟨1, "L", some 11⟩
  | true => ⟨1, "R", some 13⟩

/-- Both changes begin, and then they are served and land in the same order. -/
theorem run_twoEdits :
    ∃ s, Race.Run twoEdits (.start twoKindsPlanner twoKinds) s ∧
      (∀ i, s.leg i = .landed (.ok .applied)) ∧ s.served = [true, false] ∧
      s.landed = [true, false] ∧ ¬(twoEdits false).InStore s.store ∧
      ¬(twoEdits false).InPlan s.planner.plan := by
  have run : Race.Run twoEdits (.start twoKindsPlanner twoKinds) _ := .refl
  have run := run.tail (.begin false ⟨⟨.selection 1 "L", 2, some "202620"⟩, 1, "L", [11]⟩ _ rfl
    nofun rfl)
  have run := run.tail (.begin true ⟨⟨.selection 1 "R", 3, some "202620"⟩, 1, "R", [13]⟩ _ rfl
    nofun rfl)
  have run := run.tail (.serve false _ rfl)
  have run := run.tail (.serve true _ rfl)
  have run := run.tail (.land false _ _ rfl)
  have run := run.tail (.land true _ _ rfl)
  exact ⟨_, run, fun i => by cases i <;> rfl, rfl, rfl, by decide, by decide⟩

end Timetable.Service
