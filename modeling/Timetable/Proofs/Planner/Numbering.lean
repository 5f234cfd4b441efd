import Timetable.Proofs.Planner.Session

/-!
# The numbers of tickets

What a planner remembers about its requests is read off their history: tickets are numbered upwards
in the order in which they are handed out (`Numbered.descending`), and the number that is remembered
for a key is that of the newest ticket with the key (`Numbered.latest`). So `Planner.isLatest` says
of a ticket what its name says (`Numbered.isLatest_iff`). Every answer belongs to a request that was
handed out (`Numbered.handed`).
-/

namespace Timetable.Planner.Session

/-- The planner's numbers agree with the requests of its history. -/
structure Numbered (s : Session) : Prop where
  positive : ∀ t ∈ s.history.tickets, 0 < t.seq
  bounded : ∀ t ∈ s.history.tickets, t.seq ≤ s.planner.lastSeq
  descending : s.history.tickets.Pairwise fun newer older => older.seq < newer.seq
  latest : ∀ key, valueOf? key s.planner.latest =
    (s.history.tickets.find? fun t => t.key = key).map Ticket.seq
  handed : ∀ request ∈ s.history.completions, s.history.Handed request

namespace Numbered

variable {p : Planner} {past : History}

theorem new : Numbered Session.new where
  positive := by simp [Session.new, History.tickets, History.requests]
  bounded := by simp [Session.new, History.tickets, History.requests]
  descending := .nil
  latest _ := rfl
  handed := by simp [Session.new, History.completions]

/-- A request with the next number keeps the numbers in order. -/
theorem request {q : Planner} (held : Numbered ⟨p, past⟩) {r : Request}
    (seq : r.ticket.seq = p.lastSeq + 1) (lastSeq : q.lastSeq = p.lastSeq + 1)
    (latest : q.latest = setValue r.ticket.key (p.lastSeq + 1) p.latest) :
    Numbered ⟨q, .requested r :: past⟩ := by
  have tickets : History.tickets (.requested r :: past) = r.ticket :: past.tickets := rfl
  constructor <;> simp only [tickets, lastSeq, latest]
  case positive =>
    intro t member
    rcases List.mem_cons.mp member with rfl | earlier
    · omega
    · exact held.positive t earlier
  case bounded =>
    intro t member
    rcases List.mem_cons.mp member with rfl | earlier
    · omega
    · exact Nat.le_succ_of_le (held.bounded t earlier)
  case descending =>
    refine List.pairwise_cons.mpr ⟨fun t earlier => ?_, held.descending⟩
    have := held.bounded t earlier
    dsimp only at this
    omega
  case latest =>
    intro key
    rw [valueOf?_setValue, List.find?_cons]
    by_cases same : r.ticket.key = key
    · simp only [same, if_true, decide_true, Option.map_some, seq]
    · simp only [same, if_false, decide_false]
      exact held.latest key
  case handed =>
    intro request member
    exact (held.handed request member).cons _

/-- Other steps keep the numbers when they keep the planner's and answer what was handed out. -/
theorem keep {q : Planner} {e : Event} (held : Numbered ⟨p, past⟩)
    (unrequested : e.request? = none)
    (answers : ∀ request, e.completed? = some request → past.Handed request)
    (lastSeq : q.lastSeq = p.lastSeq) (latest : q.latest = p.latest) :
    Numbered ⟨q, e :: past⟩ := by
  have requests : History.requests (e :: past) = past.requests :=
    List.filterMap_cons_none unrequested
  have tickets : History.tickets (e :: past) = past.tickets := by
    unfold History.tickets
    rw [requests]
  constructor <;> simp only [tickets, lastSeq, latest]
  case positive => exact held.positive
  case bounded => exact held.bounded
  case descending => exact held.descending
  case latest => exact held.latest
  case handed =>
    intro request member
    obtain ⟨e', among, completes⟩ := List.mem_filterMap.mp member
    rcases List.mem_cons.mp among with rfl | before
    · exact (answers request completes).cons _
    · exact (held.handed request (List.mem_filterMap.mpr ⟨e', before, completes⟩)).cons _

theorem change {s : Session} (held : Numbered ⟨p, past⟩) (change : Change p past s) :
    Numbered s := by
  cases change with
  | refused => exact held
  | requested key term phase lawful => exact held.request rfl rfl rfl
  | selected courseId typeKey choice next loaded free tried => exact held.request rfl rfl rfl
  | failed request e handed =>
    exact held.keep rfl (fun r same => Option.some.inj same ▸ handed) rfl rfl
  | applied request r handed latest newer =>
    exact held.keep rfl (fun r same => Option.some.inj same ▸ handed) rfl rfl
  | superseded request r handed old =>
    exact held.keep rfl (fun r same => Option.some.inj same ▸ handed) rfl rfl
  | activated courseId known => exact held.keep rfl (fun r same => by cases same) rfl rfl
  | staleTaken => exact held.keep rfl (fun r same => by cases same) rfl rfl

end Numbered

theorem Reach.numbered {s : Session} (reach : Reach s) : Numbered s := by
  induction reach with
  | refl => exact Numbered.new
  | tail _ step held => exact held.change step.change

/-! ## Consequences -/

namespace Numbered

variable {s : Session}

/-- Two requests with one number are one request. -/
theorem eq_of_seq (held : Numbered s) {r r' : Request} (mem : r ∈ s.history.requests)
    (mem' : r' ∈ s.history.requests) (same : r.ticket.seq = r'.ticket.seq) : r = r' := by
  have order := List.pairwise_map.mp held.descending
  have forward := order.imp (S := fun a b : Request => a.ticket.seq = b.ticket.seq → a = b)
    fun older_lt same => absurd same.symm (Nat.ne_of_lt older_lt)
  have backward := order.imp (S := flip fun a b : Request => a.ticket.seq = b.ticket.seq → a = b)
    fun older_lt same => absurd same (Nat.ne_of_lt older_lt)
  exact List.Pairwise.forall_of_forall_of_flip (fun _ _ _ => rfl) forward backward mem mem' same

theorem ticket_eq_of_seq (held : Numbered s) {t u : Ticket} (mem_t : t ∈ s.history.tickets)
    (mem_u : u ∈ s.history.tickets) (same : t.seq = u.seq) : t = u := by
  obtain ⟨r, mem, rfl⟩ := List.mem_map.mp mem_t
  obtain ⟨r', mem', rfl⟩ := List.mem_map.mp mem_u
  rw [held.eq_of_seq mem mem' same]

theorem completed_subset (held : Numbered s) :
    ∀ t ∈ s.history.completed, t ∈ s.history.tickets := by
  intro t member
  obtain ⟨request, answered, rfl⟩ := List.mem_map.mp member
  exact (held.handed request answered).ticket_mem

/-- The first ticket with a key is the newest one. -/
theorem le_of_find? (held : Numbered s) {key : RequestKey} {t u : Ticket}
    (first : s.history.tickets.find? (fun t => t.key = key) = some t)
    (member : u ∈ s.history.tickets) (keyed : u.key = key) : u.seq ≤ t.seq := by
  obtain ⟨_, newer, older, split, none_newer⟩ := List.find?_eq_some_iff_append.mp first
  have order := held.descending
  rw [split] at member order
  rcases List.mem_append.mp member with among | here
  · have := none_newer u among
    simp [keyed] at this
  · rcases List.mem_cons.mp here with rfl | earlier
    · exact Nat.le_refl _
    · have sorted := (List.pairwise_append.mp order).2.1
      exact Nat.le_of_lt ((List.pairwise_cons.mp sorted).1 u earlier)

/-- A ticket is the latest of its key when no ticket with the key has a greater number. -/
theorem isLatest_iff (held : Numbered s) {t : Ticket} (member : t ∈ s.history.tickets) :
    s.planner.isLatest t = true ↔ ∀ u ∈ s.history.tickets, u.key = t.key → u.seq ≤ t.seq := by
  have remembered := held.latest t.key
  unfold isLatest
  rw [remembered, decide_eq_true_iff]
  cases first : s.history.tickets.find? (fun u => u.key = t.key) with
  | none =>
    have := List.find?_eq_none.mp first t member
    simp at this
  | some newest =>
    have newest_mem := List.mem_of_find?_eq_some first
    have newest_key : newest.key = t.key := by simpa using List.find?_some first
    rw [Option.map_some]
    constructor
    · intro same u among keyed
      rw [← Option.some.inj same]
      exact held.le_of_find? first among keyed
    · intro bound
      have le := bound newest newest_mem newest_key
      have ge := held.le_of_find? first member rfl
      rw [Nat.le_antisymm le ge]

/-- The latest ticket of its key is the first one with the key. -/
theorem find?_of_isLatest (held : Numbered s) {t : Ticket} (member : t ∈ s.history.tickets)
    (latest : s.planner.isLatest t = true) :
    s.history.tickets.find? (fun u => u.key = t.key) = some t := by
  have remembered := held.latest t.key
  unfold isLatest at latest
  rw [of_decide_eq_true latest] at remembered
  cases first : s.history.tickets.find? (fun u => u.key = t.key) with
  | none => rw [first] at remembered; cases remembered
  | some newest =>
    rw [first] at remembered
    rw [held.ticket_eq_of_seq (List.mem_of_find?_eq_some first) member
      (Option.some.inj remembered).symm]

end Numbered

end Timetable.Planner.Session
