import Timetable.Proofs.Planner.Adoption
import Timetable.Proofs.Service.Tracking

/-!
# Whether the planner converges with its store

Operations run side by side over a store in memory, no call fails, and all of them end. Then the
held plan is what the store holds, or it is marked as stale, unless a change was overtaken
(`convergence`). The exception is real: `not_convergent` is a run in which a change is lost and
nothing tells.
-/

namespace Timetable.Service

/-- The beginning of a run: nothing runs, and the held plan is what the store has just given. -/
def State.synced {σ : Type} (p : Planner) (store : σ) : State σ :=
  ⟨p, store, [], [.landed p.appliedSeq (.ok .applied), .served (some p.appliedSeq) .plan store]⟩

theorem Tracked.synced {session : Planner.Session} {m : Store.Memory}
    (reach : Planner.Session.Reach session) (loaded : session.planner.isLoaded = true)
    (agrees : session.planner.plan = .ofRecord m.snapshot) :
    Tracked (.synced session.planner m) := by
  have nonzero : session.planner.appliedSeq ≠ 0 := of_decide_eq_true loaded
  have le : session.planner.appliedSeq ≤ session.planner.lastSeq := by
    obtain ⟨t, member, same⟩ := reach.adopted.appliedSeq_mem reach.numbered nonzero
    exact same ▸ reach.numbered.bounded t member
  have answered : AnsweredWith (State.synced session.planner m).trace session.planner.appliedSeq
      m.snapshot :=
    (Unanswered.answer (fun _ => List.not_mem_nil) m).cons nofun
  constructor
  case loaded => exact nonzero
  case bounded =>
    intro w member
    exact List.mem_singleton.mp member ▸ le
  case distinct => exact List.pairwise_singleton _ _
  case given =>
    intro w m' member
    rcases List.mem_cons.mp member with same | first
    · cases same
    · cases List.mem_singleton.mp first
      exact le
  case sound => exact fun x member => absurd member List.not_mem_nil
  case held => exact ⟨m.snapshot, answered, agrees⟩
  case accounted =>
    refine ⟨[.landed session.planner.appliedSeq (.ok .applied)], _, _, [], ⟨rfl, ?_⟩, ?_⟩
    · simp [Moment.IsServed]
    · exact .inr (.inr ⟨_, rfl, rfl, .inr ⟨List.mem_cons_self, .inl rfl⟩⟩)

/-! ## Convergence -/

/-- A change was overtaken: the answer to the call that the store served last was applied, and then
one that the store had given before it, to a ticket with a greater number. What the store holds is
not what it held then. -/
def State.Overtaken (s : State Store.Memory) : Prop :=
  ∃ newer w older m, LastServed s.trace s.store newer (some w) .plan older ∧
    w < s.planner.appliedSeq ∧
    [.landed s.planner.appliedSeq (.ok .applied), .landed w (.ok .applied)].Sublist newer ∧
    .served (some s.planner.appliedSeq) .plan m ∈ older ∧
    Plan.ofRecord m.snapshot ≠ .ofRecord s.store.snapshot

/-- When every operation has ended, the last call is accounted for by the mark or by its answer. -/
theorem Accounted.of_finished {s : State Store.Memory} (accounted : Accounted s)
    (finished : s.Finished) : s.planner.stale = true ∨
      ∃ newer w older, LastServed s.trace s.store newer (some w) .plan older ∧
        Settled newer w older s.planner.appliedSeq := by
  obtain ⟨newer, seq, kind, older, last, fate⟩ := accounted
  rcases fate with marked | ⟨x, member, fetches⟩ | ⟨w, rfl, rfl, ⟨x, member, carries⟩ | done⟩
  · exact .inl marked
  · exact absurd fetches (x.not_owes_of_hasEnded (finished x member))
  · exact absurd carries (x.not_carries_of_hasEnded (finished x member) w)
  · exact .inr ⟨newer, w, older, last, done⟩

/-- What the store gave for the number of the held plan is the held plan. -/
theorem Tracked.plan_eq {s : State Store.Memory} (tracked : Tracked s) {m : Store.Memory}
    (given : .served (some s.planner.appliedSeq) .plan m ∈ s.trace) :
    s.planner.plan = .ofRecord m.snapshot := by
  obtain ⟨r, ⟨-, only⟩, plan⟩ := tracked.held
  rw [plan, only m given]

/-- When every operation has ended and no call failed, the held plan is what the store holds or it
is marked as stale, but for a change that was overtaken. -/
theorem convergence {session : Planner.Session} {m : Store.Memory} {s : State Store.Memory}
    (reach : Planner.Session.Reach session) (loaded : session.planner.isLoaded = true)
    (agrees : session.planner.plan = .ofRecord m.snapshot)
    (run : Run Succeeds (.synced session.planner m) s) (finished : s.Finished) :
    (s.planner.stale = true ∨ s.planner.plan = .ofRecord s.store.snapshot) ↔
      (s.planner.stale = true ∨ ¬s.Overtaken) := by
  have tracked := run.tracked (.synced reach loaded agrees)
  constructor
  · rintro (marked | equal)
    · exact .inl marked
    · refine .inr ?_
      rintro ⟨newer, w, older, m', last, -, -, given, differs⟩
      have among : .served (some s.planner.appliedSeq) .plan m' ∈ s.trace :=
        last.split ▸ List.mem_append_right _ (List.mem_cons_of_mem _ given)
      exact differs ((tracked.plan_eq among).symm.trans equal)
  · rintro (marked | whole)
    · exact .inl marked
    · rcases tracked.accounted.of_finished finished with
        marked | ⟨newer, w, older, last, landed, fate⟩
      · exact .inl marked
      · refine .inr ?_
        rcases fate with rfl | ⟨lt, order, m', given⟩
        · exact tracked.plan_eq (last.split ▸ List.mem_append_right _ List.mem_cons_self)
        · have among : .served (some s.planner.appliedSeq) .plan m' ∈ s.trace :=
            last.split ▸ List.mem_append_right _ (List.mem_cons_of_mem _ given)
          -- The last call may have left the store's plan as it was.
          by_cases same : Plan.ofRecord m'.snapshot = .ofRecord s.store.snapshot
          · exact (tracked.plan_eq among).trans same
          · exact absurd ⟨newer, w, older, m', last, lt, order, given, same⟩ whole

/-! ## Two runs -/

/-- A plan with one course is all that the store holds. -/
def shelf : Store.Seed := ⟨Planner.Session.sample false, []⟩

/-- The planner has loaded the plan of the store. -/
def loadedSession : Planner.Session :=
  (Planner.Session.new.beginLoad none).answer (.plain ⟨.plan, 1, none⟩)
    (.ok (Planner.Session.sample false))

theorem reach_loadedSession : Planner.Session.Reach loadedSession :=
  .tail (.tail .refl (.beginLoad _)) (.complete _ _ List.mem_cons_self)

/-- A selection change and a refresh are served in the order of their numbers and land the other way
round. The change is dropped, and its operation loads the plan once more. -/
theorem run_reloaded :
    ∃ s, Run Succeeds (.synced loadedSession.planner (.ofSeed shelf)) s ∧ s.Finished ∧
      s.planner.stale = false ∧ s.planner.appliedSeq = 4 ∧
        s.planner.plan = .ofRecord s.store.snapshot := by
  have run : Run Succeeds (.synced loadedSession.planner (.ofSeed shelf)) _ := .refl
  have run := run.tail (.start (.select 1 "L" (some 11)))
  have run := run.tail (.start (.refreshCourse 1 false))
  have run := run.tail (.serve (.selectSections 1 [11])
    (.adoptSelection ⟨⟨.selection 1 "L", 2, some "202620"⟩, 1, "L", [11]⟩) [_] [] _ _ rfl
    ⟨rfl, _, rfl⟩)
  have run := run.tail (.serve (.refreshSections 1 false)
    (.adopt ⟨.course 1, 3, some "202620"⟩ none) [] [_] _ _ rfl ⟨rfl, _, rfl⟩)
  have run := run.tail (.advance [] _ [_] rfl)
  have run := run.tail (.advance [] _ [_] rfl)
  have run := run.tail (.advance [_] _ [] rfl)
  have run := run.tail (.advance [_] _ [] rfl)
  have run := run.tail (.advance [_] _ [] rfl)
  have run := run.tail (.serve (.fetchPlan (some "202620"))
    (.reload (.outcome .superseded) ⟨.plan, 4, some "202620"⟩) [_] [] _ _ rfl ⟨rfl, _, rfl⟩)
  have run := run.tail (.advance [_] _ [] rfl)
  exact ⟨_, run, by decide, by decide, by decide, by decide⟩

theorem convergence_reloaded :
    ∃ s, Run Succeeds (.synced loadedSession.planner (.ofSeed shelf)) s ∧ s.Finished ∧
      s.planner.stale = false ∧ s.planner.appliedSeq = 4 ∧ ¬s.Overtaken := by
  obtain ⟨s, run, finished, unmarked, reloaded, equal⟩ := run_reloaded
  have converges := convergence reach_loadedSession (by decide) (by decide) run finished
  refine ⟨s, run, finished, unmarked, reloaded, ?_⟩
  exact (converges.mp (.inr equal)).resolve_left (by simp [unmarked])

/-- The store serves the refresh before the selection change, and the change lands first. The
refresh has the greater number, so its plan, without the change, is applied, and nothing marks it as
stale. -/
theorem not_convergent :
    ¬∀ (seed : Store.Seed) (session : Planner.Session) (s : State Store.Memory),
      Planner.Session.Reach session → session.planner.isLoaded = true →
      session.planner.plan = .ofRecord (Store.Memory.ofSeed seed).snapshot →
      Run Succeeds (.synced session.planner (.ofSeed seed)) s → s.Finished →
      s.planner.stale = true ∨ s.planner.plan = .ofRecord s.store.snapshot := by
  intro converges
  have run : Run Succeeds (.synced loadedSession.planner (.ofSeed shelf)) _ := .refl
  have run := run.tail (.start (.select 1 "L" (some 11)))
  have run := run.tail (.start (.refreshCourse 1 false))
  have run := run.tail (.serve (.refreshSections 1 false)
    (.adopt ⟨.course 1, 3, some "202620"⟩ none) [] [_] _ _ rfl ⟨rfl, _, rfl⟩)
  have run := run.tail (.serve (.selectSections 1 [11])
    (.adoptSelection ⟨⟨.selection 1 "L", 2, some "202620"⟩, 1, "L", [11]⟩) [_] [] _ _ rfl
    ⟨rfl, _, rfl⟩)
  have run := run.tail (.advance [_] _ [] rfl)
  have run := run.tail (.advance [_] _ [] rfl)
  have run := run.tail (.advance [] _ [_] rfl)
  have run := run.tail (.advance [] _ [_] rfl)
  have end_state := converges _ _ _ reach_loadedSession (by decide) (by decide) run (by decide)
  revert end_state
  decide

end Timetable.Service
