import Timetable.Proofs.NumberOrder
import Timetable.Proofs.Placement.Build

/-!
# The choice that the search prefers

A choice takes one section from each group of a course; it is told by the positions of its sections
in their groups, and of two choices the one with the lexicographically smaller positions is
preferred. The search goes down the groups and gives up a section only when nothing fits behind it,
so it finds the first choice that fits beside what is taken, and finds none only when no choice fits
(`Placement.decided_placeCourse`). Each group is searched in the order of `rank`, which sorts by
falling probability and leaves ties as they were (`Placement.ranked_rank`); probabilities are
compared by their keys, and keys are ordered as numbers are (`Demand.orderKey_lt_iff`). Main
statement: `Placement.build_decided`.
-/

namespace Timetable.Placement

/-! ## The order within a group -/

/-- The probability of obtaining a section, as it is computed. -/
def chance (s : Section) : Float := Demand.probability s

/-- The key by which the search compares probabilities. -/
def likelihood (s : Section) : Nat := Demand.orderKey (chance s)

/-- The sections of a group by falling probability, equally likely ones in their order in it. -/
structure Ranked (group ordered : List Section) : Prop where
  perm : ordered.Perm group
  falling : ordered.Pairwise fun a b => ¬Demand.Below (chance a) (chance b)
  ties : ∀ p, ordered.filter (chance · = p) = group.filter (chance · = p)

theorem likelihood_le_iff {s t : Section} :
    likelihood t ≤ likelihood s ↔ ¬Demand.Below (chance s) (chance t) := by
  rw [← Demand.orderKey_lt_iff]
  exact Nat.not_lt.symm

theorem likelihood_eq_iff {s t : Section} : likelihood s = likelihood t ↔ chance s = chance t :=
  Demand.orderKey_inj

theorem ranking_trans (a b c : Section) (ab : decide (likelihood b ≤ likelihood a) = true)
    (bc : decide (likelihood c ≤ likelihood b) = true) :
    decide (likelihood c ≤ likelihood a) = true := by
  rw [decide_eq_true_iff] at ab bc ⊢
  omega

theorem ranking_total (a b : Section) :
    (decide (likelihood b ≤ likelihood a) || decide (likelihood a ≤ likelihood b)) = true := by
  rw [Bool.or_eq_true, decide_eq_true_iff, decide_eq_true_iff]
  omega

theorem pairwise_rank (group : List Section) :
    (rank group).Pairwise fun a b => likelihood b ≤ likelihood a :=
  (List.pairwise_mergeSort ranking_trans ranking_total group).imp of_decide_eq_true

theorem ranked_rank (group : List Section) : Ranked group (rank group) := by
  constructor
  case perm => exact List.mergeSort_perm _ _
  case falling => exact (pairwise_rank group).imp likelihood_le_iff.mp
  case ties =>
    intro p
    refine filter_mergeSort ranking_trans ranking_total fun a b first second => ?_
    have same : chance a = chance b :=
      (of_decide_eq_true first).trans (of_decide_eq_true second).symm
    exact decide_eq_true (Nat.le_of_eq (likelihood_eq_iff.mpr same.symm))

/-- A group is ranked as well by inserting its sections one at a time, the last one first. -/
theorem rank_eq_insertionSort (group : List Section) :
    rank group = group.insertionSort fun a b => likelihood b ≤ likelihood a := by
  induction group with
  | nil => exact List.mergeSort_nil
  | cons s rest ih =>
    obtain ⟨before, behind, whole, others, passed⟩ :=
      List.mergeSort_cons ranking_trans ranking_total s rest
    have whole : rank (s :: rest) = before ++ s :: behind := whole
    have others : rank rest = before ++ behind := others
    have falling := pairwise_rank (s :: rest)
    rw [whole, List.pairwise_append, List.pairwise_cons] at falling
    have front : ∀ b ∈ before, decide ¬likelihood b ≤ likelihood s = true := by
      simpa using passed
    have back : ∀ b ∈ behind, likelihood b ≤ likelihood s := falling.2.1.1
    rw [List.insertionSort_cons, ← ih, List.orderedInsert_eq_take_drop, whole, others,
      List.takeWhile_append_of_pos front, List.dropWhile_append_of_pos front]
    cases behind with
    | nil => simp
    | cons b behind =>
      have least := back b List.mem_cons_self
      simp [least]

/-! ## Choices -/

/-- One section from each group, with its position in the group. -/
inductive Picks : List (List Section) → List Nat → List Section → Prop
  | nil : Picks [] [] []
  | cons {group : List Section} {groups : List (List Section)} {i : Nat} {positions : List Nat}
    {s : Section} {chosen : List Section} :
    group[i]? = some s → Picks groups positions chosen →
    Picks (group :: groups) (i :: positions) (s :: chosen)

/-- Of the chosen sections that have a meeting, no two overlap, and none overlaps a meeting that is
taken. -/
structure Beside (taken : List Meeting) (chosen : List Section) : Prop where
  apart : Apart (chosen.filterMap (·.meeting))
  free : ∀ t ∈ taken, ∀ m ∈ chosen.filterMap (·.meeting), t.overlaps m = false

/-- The choice fits, and no choice at smaller positions does. -/
def First (taken : List Meeting) (groups : List (List Section)) (chosen : List Section) : Prop :=
  ∃ positions, Picks groups positions chosen ∧ Beside taken chosen ∧
    ∀ earlier other, Picks groups earlier other → earlier < positions → ¬Beside taken other

/-- What is found is the first choice that fits, and nothing is found only when none fits. -/
structure Decided (taken : List Meeting) (groups : List (List Section))
    (outcome : Option (List Section)) : Prop where
  eq_none_iff :
    outcome = none ↔ ∀ positions chosen, Picks groups positions chosen → ¬Beside taken chosen
  eq_some_iff : ∀ chosen, outcome = some chosen ↔ First taken groups chosen

section Search

variable {taken : List Meeting} {group : List Section} {groups : List (List Section)} {s : Section}
  {chosen other : List Section} {positions earlier : List Nat}

/-- Choices at the same positions are the same, and others are in order. -/
theorem Picks.lt_or_gt_of_ne (picks : Picks groups positions chosen)
    (picks' : Picks groups earlier other) (ne : chosen ≠ other) :
    positions < earlier ∨ earlier < positions := by
  induction picks generalizing earlier other with
  | nil =>
    cases picks'
    exact absurd rfl ne
  | @cons _ _ i _ s _ at_i _ ih =>
    rcases picks' with _ | @⟨_, _, j, _, s', _, at_j, picks'⟩
    simp only [List.cons_lt_cons_iff]
    rcases Nat.lt_trichotomy i j with lt | same | gt
    · exact Or.inl (Or.inl lt)
    · subst same
      obtain rfl : s = s' := Option.some.inj (at_i.symm.trans at_j)
      have differ := ih picks' fun same => ne (congrArg _ same)
      exact differ.imp (fun lt => Or.inr ⟨rfl, lt⟩) fun gt => Or.inr ⟨rfl, gt⟩
    · exact Or.inr (Or.inl gt)

theorem First.unique (first : First taken groups chosen) (first' : First taken groups other) :
    chosen = other := by
  obtain ⟨positions, picks, beside, least⟩ := first
  obtain ⟨earlier, picks', beside', least'⟩ := first'
  by_contra ne
  rcases picks.lt_or_gt_of_ne picks' ne with lt | gt
  · exact least' _ _ picks lt beside
  · exact least _ _ picks' gt beside'

/-- A section goes with a choice when it fits itself and the choice fits beside it. -/
theorem beside_cons :
    Beside taken (s :: chosen) ↔ fits taken s = true ∧ Beside (take taken s) chosen := by
  cases meets : s.meeting with
  | none =>
    have same : (s :: chosen).filterMap (·.meeting) = chosen.filterMap (·.meeting) :=
      List.filterMap_cons_none meets
    simp only [fits, take, meets, true_and]
    exact ⟨fun b => ⟨same ▸ b.apart, same ▸ b.free⟩, fun b => ⟨same ▸ b.apart, same ▸ b.free⟩⟩
  | some m =>
    have more : (s :: chosen).filterMap (·.meeting) = m :: chosen.filterMap (·.meeting) :=
      List.filterMap_cons_some meets
    simp only [fits, take, meets, List.all_eq_true, Bool.not_eq_true']
    constructor
    · intro beside
      have apart := beside.apart
      have free := beside.free
      rw [more] at apart free
      obtain ⟨first, apart⟩ := List.pairwise_cons.mp apart
      refine ⟨fun t among => free t among m List.mem_cons_self, apart, ?_⟩
      intro t among n later
      rcases List.mem_append.mp among with before | here
      · exact free t before n (List.mem_cons_of_mem _ later)
      · rw [List.mem_singleton.mp here]
        exact first n later
    · intro both
      obtain ⟨fit, apart, free⟩ := both
      constructor
      · rw [more]
        exact .cons (fun n later => free m (by simp) n later) apart
      · rw [more]
        intro t among n listed
        rcases List.mem_cons.mp listed with rfl | later
        · exact fit t among
        · exact free t (List.mem_append_left _ among) n later

/-- What is tried for one section of a group finds nothing when no choice with it fits. -/
theorem not_beside_of_tried
    (tried : (if fits taken s then (firstFit (take taken s) groups).map (s :: ·) else none) = none)
    (none_fits : firstFit (take taken s) groups = none → ¬Beside (take taken s) chosen) :
    ¬Beside taken (s :: chosen) := by
  intro beside
  obtain ⟨fit, beside⟩ := beside_cons.mp beside
  rw [if_pos fit, Option.map_eq_none_iff] at tried
  exact none_fits tried beside

theorem not_beside_of_firstFit (found : firstFit taken groups = none)
    (picks : Picks groups positions chosen) : ¬Beside taken chosen := by
  induction picks generalizing taken with
  | nil => cases found
  | cons at_i _ ih =>
    rw [firstFit, List.findSome?_eq_none_iff] at found
    exact not_beside_of_tried (found _ (List.mem_of_getElem? at_i)) fun found => ih found

theorem first_of_firstFit (found : firstFit taken groups = some chosen) :
    First taken groups chosen := by
  induction groups generalizing taken chosen with
  | nil =>
    cases found
    refine ⟨[], .nil, ⟨.nil, fun _ _ _ listed => absurd listed List.not_mem_nil⟩, ?_⟩
    intro earlier _ _ lt
    exact absurd lt (List.not_lt_nil earlier)
  | cons group groups ih =>
    rw [firstFit, List.findSome?_eq_some_iff] at found
    obtain ⟨before, s, behind, rfl, tried, passed⟩ := found
    by_cases fit : fits taken s = true
    · rw [if_pos fit, Option.map_eq_some_iff] at tried
      obtain ⟨others, went_on, rfl⟩ := tried
      obtain ⟨positions, picks, beside, least⟩ := ih went_on
      have here : (before ++ s :: behind)[before.length]? = some s := by simp
      refine ⟨before.length :: positions, .cons here picks, beside_cons.mpr ⟨fit, beside⟩, ?_⟩
      intro earlier other picks' lt
      rcases picks' with _ | @⟨_, _, i, earlier, s', other, at_i, picks'⟩
      rcases List.cons_lt_cons_iff.mp lt with sooner | ⟨same, later⟩
      · -- Every section in front of the one that was taken has been given up.
        rw [List.getElem?_append_left sooner] at at_i
        exact not_beside_of_tried (passed s' (List.mem_of_getElem? at_i)) fun found =>
          not_beside_of_firstFit found picks'
      · subst same
        obtain rfl : s = s' := Option.some.inj (here.symm.trans at_i)
        intro beside'
        exact least earlier other picks' later (beside_cons.mp beside').2
    · rw [if_neg fit] at tried
      cases tried

theorem decided_firstFit (taken : List Meeting) (groups : List (List Section)) :
    Decided taken groups (firstFit taken groups) := by
  constructor
  · constructor
    · intro found positions chosen picks
      exact not_beside_of_firstFit found picks
    · intro none_fits
      cases found : firstFit taken groups with
      | none => rfl
      | some chosen =>
        obtain ⟨positions, picks, beside, -⟩ := first_of_firstFit found
        exact absurd beside (none_fits positions chosen picks)
  · intro chosen
    constructor
    · exact first_of_firstFit
    · intro first
      cases found : firstFit taken groups with
      | none =>
        obtain ⟨positions, picks, beside, -⟩ := first
        exact absurd beside (not_beside_of_firstFit found picks)
      | some other => rw [(first_of_firstFit found).unique first]

end Search

/-! ## Courses and plans -/

/-- The groups of a course in the order of their kinds, each with its preferred sections first. -/
def preferences (c : Course) : List (List Section) := c.typeGroups.map fun g => rank g.2

theorem decided_placeCourse (c : Course) (taken : List Meeting) :
    Decided taken (preferences c) (placeCourse c taken) := by
  rw [placeCourse_eq_firstFit]
  exact decided_firstFit taken (preferences c)

/-- Each course is placed beside what was chosen for those in front of it. -/
theorem eq_placeCourse_of_choices {taken : List Meeting} {courses : List Course}
    {before after : List (Course × Option (List Section))} {x : Course × Option (List Section)}
    (split : choices taken courses = before ++ x :: after) :
    x.2 = placeCourse x.1 (taken ++ (before.flatMap chosenFor).filterMap (·.meeting)) := by
  induction before generalizing taken courses with
  | nil =>
    cases courses with
    | nil => cases split
    | cons c rest =>
      rw [choices, List.nil_append] at split
      injection split with here _
      simp [← here]
  | cons y before ih =>
    cases courses with
    | nil => cases split
    | cons c rest =>
      rw [choices, List.cons_append] at split
      injection split with here later
      rw [ih later, List.flatMap_cons, List.filterMap_append, List.append_assoc, ← here]
      rfl

/-- The outcome for each course of a plan, decided beside what is chosen for the courses in front of
it, and the schedule that they make. -/
structure Outcomes (p : Plan) (outcomes : List (Course × Option (List Section))) : Prop where
  courses : outcomes.map Prod.fst = p.courses
  each : ∀ before x after, outcomes = before ++ x :: after →
    Decided ((before.flatMap chosenFor).filterMap (·.meeting)) (preferences x.1) x.2
  schedule : build p =
    { selected := .ofList ((outcomes.flatMap chosenFor).map (·.id))
      placed := (outcomes.filter (·.2.isSome)).map (·.1.code)
      unplaced := (outcomes.filter (!·.2.isSome)).map (·.1.code) }

/-- A course gets the first choice that fits beside what is taken, going through its groups in order
and through each by falling probability, and gets none only when none fits. A plan is built by
placing its courses in order, so those that are reported are those for which nothing fits beside the
sections that were chosen for the courses in front of them. -/
theorem build_decided :
    (∀ group, Ranked group (rank group)) ∧
      (∀ c taken, Decided taken (preferences c) (placeCourse c taken)) ∧
      ∀ p, ∃ outcomes, Outcomes p outcomes := by
  refine ⟨ranked_rank, decided_placeCourse, fun p => ⟨choices [] p.courses, ?_⟩⟩
  constructor
  case courses => exact map_fst_choices [] p.courses
  case each =>
    intro before x after split
    have placed := eq_placeCourse_of_choices split
    rw [List.nil_append] at placed
    rw [placed]
    exact decided_placeCourse x.1 _
  case schedule =>
    rw [build, foldl_placeNext]
    rfl

/-- Of the two lectures of the first course the one in front is nearly full, and the second course
needs an hour of the other one. -/
def crossed : Plan :=
  .ofRecord
    { courses :=
        [{ id := 1, code := "CS 1713", term := "202620"
           sections :=
             [{ id := 11, courseId := 1, code := "L1", days := "MWF", times := "9:00 AM - 9:50 AM"
                capacity := some 30, enrolled := some 29 },
              { id := 12, courseId := 1, code := "L2", days := "TR", times := "9:00 AM - 10:15 AM"
                capacity := some 30, enrolled := some 2 },
              { id := 13, courseId := 1, code := "R1" }] },
         { id := 2, code := "CS 2124", term := "202620"
           sections :=
             [{ id := 21, courseId := 2, code := "L1", days := "R"
                times := "10:00 AM - 11:15 AM" }] }] }

theorem ids_crossed :
    (crossed.courses.map fun c => (preferences c).map (·.map (·.id))) = [[[12, 11], [13]], [[21]]] ∧
      (build crossed).selected.toList = [12, 13] ∧ (build crossed).unplaced = ["CS 2124"] := by
  -- Sorting by merging cannot be evaluated in a proof, inserting can.
  simp only [build, preferences]
  delta placeNext
  simp only [placeCourse, rank_eq_insertionSort]
  decide +kernel

/-- The emptier lecture is tried first and taken, and then nothing fits for the second course. -/
theorem build_decided_crossed :
    ∃ first second : Course × Option (List Section),
      crossed.courses = [first.1, second.1] ∧ Decided [] (preferences first.1) first.2 ∧
        Decided ((chosenFor first).filterMap (·.meeting)) (preferences second.1) second.2 ∧
        (preferences first.1).map (·.map (·.id)) = [[12, 11], [13]] ∧
        (build crossed).selected.toList = [12, 13] ∧ (build crossed).unplaced = ["CS 2124"] := by
  obtain ⟨outcomes, told⟩ := build_decided.2.2 crossed
  have two : outcomes.length = 2 := by
    have courses := congrArg List.length told.courses
    rw [List.length_map] at courses
    exact courses
  obtain ⟨first, second, rfl⟩ := List.length_eq_two.mp two
  have courses : crossed.courses = [first.1, second.1] := told.courses.symm
  have after := told.each [first] second [] rfl
  rw [List.flatMap_singleton] at after
  obtain ⟨ranked, selected, unplaced⟩ := ids_crossed
  rw [courses] at ranked
  exact ⟨first, second, courses, told.each [] first [second] rfl, after, (List.cons.inj ranked).1,
    selected, unplaced⟩

end Timetable.Placement
