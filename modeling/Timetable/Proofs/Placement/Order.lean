import Mathlib.Data.List.Lex
import Timetable.Proofs.Placement.Preference

/-!
# The order of the choices of a course

What the search prefers, told without positions: a choice of a course has one section of each of its
kinds, in the order of the kinds (`Choice`). Of two sections the likelier one comes sooner, and of
equally likely ones the one that stands in front (`Sooner`); choices are in the lexicographic order
of that. A course gets the choice that fits beside what is taken and that no other fitting one comes
before (`placeCourse_eq_some_iff`). Whether it gets any depends only on the kinds and meetings of
its sections (`placeCourse_eq_none_of_offer`), and in a plan each course is placed beside what is
chosen for those in front of it (`chosenIn_perm_getD`).
-/

namespace Timetable.Placement

/-- One section of every kind of the course, in the order of the kinds. -/
structure Choice (c : Course) (chosen : List Section) : Prop where
  kinds : chosen.map (·.typeKey) = c.typeKeys
  within : ∀ s ∈ chosen, s ∈ c.sections

/-- The section is likelier than the other one, or as likely and in front of it. -/
def Sooner (c : Course) (s t : Section) : Prop :=
  likelihood t < likelihood s ∨ likelihood s = likelihood t ∧ [s, t].Sublist c.sections

variable {c d : Course} {taken taken' : List Meeting} {s t : Section}
  {groups : List (List Section)} {chosen other : List Section} {positions earlier : List Nat}

/-! ## Two sections -/

theorem not_sublist_swap {l : List Section} (nodup : l.Nodup) (front : [s, t].Sublist l) :
    ¬[t, s].Sublist l := by
  induction l with
  | nil => cases front
  | cons x rest ih =>
    obtain ⟨fresh, nodup⟩ := List.nodup_cons.mp nodup
    intro back
    -- The one at the head, if it is one of the two, does not come again behind the other.
    rw [List.sublist_cons_iff] at front back
    rcases front with front | ⟨_, here, front⟩ <;> rcases back with back | ⟨_, there, back⟩
    · exact ih nodup front back
    · obtain ⟨rfl, rfl⟩ := List.cons.inj there
      exact fresh (front.subset (by simp))
    · obtain ⟨rfl, rfl⟩ := List.cons.inj here
      exact fresh (back.subset (by simp))
    · obtain ⟨rfl, rfl⟩ := List.cons.inj here
      obtain ⟨rfl, rfl⟩ := List.cons.inj there
      exact fresh (front.subset (by simp))

theorem Sooner.asymm (nodup : c.sections.Nodup) (sooner : Sooner c s t) : ¬Sooner c t s := by
  intro back
  rcases sooner with likelier | ⟨same, front⟩ <;> rcases back with likelier' | ⟨same', behind⟩
  · omega
  · omega
  · omega
  · exact not_sublist_swap nodup front behind

/-- In a ranked group, a section in front of another one comes sooner. -/
theorem Ranked.sooner {group ordered : List Section} (ranked : Ranked group ordered)
    (part : group.Sublist c.sections) {i j : Nat} (at_i : ordered[i]? = some s)
    (at_j : ordered[j]? = some t) (lt : i < j) : Sooner c s t := by
  obtain ⟨hi, rfl⟩ := List.getElem?_eq_some_iff.mp at_i
  obtain ⟨hj, rfl⟩ := List.getElem?_eq_some_iff.mp at_j
  have falling := List.pairwise_iff_getElem.mp ranked.falling i j hi hj lt
  rcases Nat.lt_or_eq_of_le (likelihood_le_iff.mpr falling) with likelier | same
  · exact Or.inl likelier
  · refine Or.inr ⟨same.symm, ?_⟩
    -- Equally likely sections are in the order of the group.
    have front : [ordered[i], ordered[j]].Sublist ordered :=
      List.pairwise_iff_getElem.mp (List.pairwise_iff_forall_sublist.mpr id) i j hi hj lt
    have level := front.filter (chance · = chance ordered[i])
    rw [ranked.ties] at level
    simp only [likelihood_eq_iff.mp same, decide_true, List.filter_cons_of_pos,
      List.filter_nil] at level
    exact (level.trans List.filter_sublist).trans part

/-! ## Choices -/

theorem exists_picks_iff :
    (∃ positions, Picks groups positions chosen) ↔ List.Forall₂ (· ∈ ·) chosen groups := by
  constructor
  · intro picked
    obtain ⟨positions, picks⟩ := picked
    induction picks with
    | nil => exact .nil
    | cons at_i _ ih => exact .cons (List.mem_of_getElem? at_i) ih
  · intro each
    induction each with
    | nil => exact ⟨[], .nil⟩
    | cons member _ ih =>
      obtain ⟨i, at_i⟩ := List.getElem?_of_mem member
      obtain ⟨positions, picks⟩ := ih
      exact ⟨i :: positions, .cons at_i picks⟩

theorem preferences_eq (c : Course) :
    preferences c = c.typeKeys.map fun key => rank (c.group key) := by
  rw [preferences, Course.typeGroups, List.map_map]
  rfl

theorem choice_iff : Choice c chosen ↔ ∃ positions, Picks (preferences c) positions chosen := by
  rw [exists_picks_iff, preferences_eq, forall₂_groups_iff]
  exact ⟨fun choice => ⟨choice.kinds, choice.within⟩, fun both => ⟨both.1, both.2⟩⟩

/-- Smaller positions are a sooner choice. -/
theorem Picks.lt_iff_lex (nodup : c.sections.Nodup)
    (ranked : ∀ ordered ∈ groups, ∃ group, Ranked group ordered ∧ group.Sublist c.sections)
    (picks : Picks groups positions chosen) (picks' : Picks groups earlier other) :
    earlier < positions ↔ List.Lex (Sooner c) other chosen := by
  induction picks generalizing earlier other with
  | nil =>
    cases picks'
    exact ⟨fun lt => absurd lt (List.not_lt_nil []), fun lex => by cases lex⟩
  | @cons _ _ i _ s _ at_i _ ih =>
    rcases picks' with _ | @⟨_, _, j, _, s', _, at_j, picks'⟩
    obtain ⟨⟨group, ranked, part⟩, others⟩ := List.forall_mem_cons.mp ranked
    rw [List.cons_lt_cons_iff, List.cons_lex_cons_iff]
    -- The first group decides, unless both have the same section of it.
    rcases Nat.lt_trichotomy j i with lt | same | gt
    · have sooner := ranked.sooner part at_j at_i lt
      exact ⟨fun _ => Or.inl sooner, fun _ => Or.inl lt⟩
    · subst same
      obtain rfl : s = s' := Option.some.inj (at_i.symm.trans at_j)
      have irreflexive : ¬Sooner c s s := fun sooner => sooner.asymm nodup sooner
      simp [irreflexive, ih others picks']
    · have later := ranked.sooner part at_i at_j gt
      have distinct : s' ≠ s := fun same => (same ▸ later).asymm nodup (same ▸ later)
      have unsooner := later.asymm nodup
      constructor
      · intro lt
        omega
      · intro lex
        rcases lex with sooner | ⟨same, -⟩
        · exact absurd sooner unsooner
        · exact absurd same distinct

theorem ranked_preferences :
    ∀ ordered ∈ preferences c, ∃ group, Ranked group ordered ∧ group.Sublist c.sections := by
  rw [preferences_eq, List.forall_mem_map]
  exact fun key _ => ⟨c.group key, ranked_rank _, List.filter_sublist⟩

/-- Sections are chosen when they fit and no other choice that fits comes sooner. -/
theorem placeCourse_eq_some_iff (nodup : c.sections.Nodup) :
    placeCourse c taken = some chosen ↔ Choice c chosen ∧ Beside taken chosen ∧
      ∀ other, Choice c other → Beside taken other → ¬List.Lex (Sooner c) other chosen := by
  rw [(decided_placeCourse c taken).eq_some_iff]
  constructor
  · intro first
    obtain ⟨positions, picks, beside, least⟩ := first
    refine ⟨choice_iff.mpr ⟨positions, picks⟩, beside, ?_⟩
    intro other choice beside' sooner
    obtain ⟨earlier, picks'⟩ := choice_iff.mp choice
    have lt := (picks.lt_iff_lex nodup ranked_preferences picks').mpr sooner
    exact least earlier other picks' lt beside'
  · intro least
    obtain ⟨choice, beside, least⟩ := least
    obtain ⟨positions, picks⟩ := choice_iff.mp choice
    refine ⟨positions, picks, beside, ?_⟩
    intro earlier other picks' lt beside'
    have sooner := (picks.lt_iff_lex nodup ranked_preferences picks').mp lt
    exact least other (choice_iff.mpr ⟨earlier, picks'⟩) beside' sooner

theorem placeCourse_eq_none_iff :
    placeCourse c taken = none ↔ ∀ chosen, Choice c chosen → ¬Beside taken chosen := by
  rw [(decided_placeCourse c taken).eq_none_iff]
  constructor
  · intro unfit chosen choice
    obtain ⟨positions, picks⟩ := choice_iff.mp choice
    exact unfit positions chosen picks
  · exact fun unfit positions chosen picks => unfit chosen (choice_iff.mpr ⟨positions, picks⟩)

/-! ## What the outcome depends on -/

theorem Beside.perm (beside : Beside taken chosen) (perm : taken.Perm taken') :
    Beside taken' chosen :=
  ⟨beside.apart, fun t among => beside.free t (perm.mem_iff.mpr among)⟩

/-- The order of what is taken does not count. -/
theorem placeCourse_perm (perm : taken.Perm taken') :
    placeCourse c taken = placeCourse c taken' := by
  have same : Beside taken = Beside taken' := by
    funext chosen
    exact propext ⟨fun beside => beside.perm perm, fun beside => beside.perm perm.symm⟩
  apply Option.ext
  intro chosen
  rw [(decided_placeCourse c taken).eq_some_iff, (decided_placeCourse c taken').eq_some_iff, First,
    First, same]

/-- What a section offers: its kind, and when it meets. -/
def offer (s : Section) : String × Option Meeting := (s.typeKey, s.meeting)

theorem exists_map_offer {sections : List Section} {offers : List (String × Option Meeting)}
    (offered : ∀ o ∈ offers, o ∈ sections.map offer) :
    ∃ chosen : List Section, (∀ s ∈ chosen, s ∈ sections) ∧ chosen.map offer = offers := by
  induction offers with
  | nil => exact ⟨[], by simp, rfl⟩
  | cons o rest ih =>
    obtain ⟨here, others⟩ := List.forall_mem_cons.mp offered
    obtain ⟨s, member, rfl⟩ := List.mem_map.mp here
    obtain ⟨chosen, within, rfl⟩ := ih others
    exact ⟨s :: chosen, List.forall_mem_cons.mpr ⟨member, within⟩, rfl⟩

theorem typeKeys_eq_of_offer (same : c.sections.map offer = d.sections.map offer) :
    c.typeKeys = d.typeKeys := by
  have kinds := congrArg (List.map Prod.fst) same
  rw [List.map_map, List.map_map] at kinds
  exact congrArg List.eraseDups kinds

/-- A choice can be made as well in a course with the same offers. -/
theorem Choice.transfer (same : c.sections.map offer = d.sections.map offer)
    (choice : Choice c chosen) :
    ∃ chosen', Choice d chosen' ∧ chosen'.map offer = chosen.map offer := by
  have offered : ∀ o ∈ chosen.map offer, o ∈ d.sections.map offer := by
    rw [List.forall_mem_map, ← same]
    exact fun s picked => List.mem_map_of_mem (choice.within s picked)
  obtain ⟨chosen', within, offers⟩ := exists_map_offer offered
  have kinds := congrArg (List.map Prod.fst) offers
  rw [List.map_map, List.map_map] at kinds
  refine ⟨chosen', ⟨?_, within⟩, offers⟩
  rw [← typeKeys_eq_of_offer same, ← choice.kinds]
  exact kinds

theorem Beside.of_offer (beside : Beside taken chosen) (same : other.map offer = chosen.map offer) :
    Beside taken other := by
  have meetings := congrArg (List.filterMap Prod.snd) same
  rw [List.filterMap_map, List.filterMap_map] at meetings
  have meetings : other.filterMap (·.meeting) = chosen.filterMap (·.meeting) := meetings
  exact ⟨meetings ▸ beside.apart, meetings ▸ beside.free⟩

theorem placeCourse_eq_none_of_offer (same : c.sections.map offer = d.sections.map offer)
    (unplaced : placeCourse c taken = none) : placeCourse d taken = none := by
  rw [placeCourse_eq_none_iff] at unplaced ⊢
  intro chosen choice beside
  obtain ⟨chosen', choice', offers⟩ := choice.transfer same.symm
  exact unplaced chosen' choice' (beside.of_offer offers)

/-- In a plan, a course is placed beside what is chosen for those in front of it. -/
theorem chosenIn_perm_getD {p : Plan} (distinct : p.sectionIds.Nodup) {before after : List Course}
    (split : p.courses = before ++ c :: after) :
    (chosenIn p c).Perm
      ((placeCourse c ((before.flatMap (chosenIn p)).filterMap (·.meeting))).getD []) := by
  have courses := map_fst_choices [] p.courses
  rw [split, List.map_eq_append_iff] at courses
  obtain ⟨front, behind, outcomes, rfl, courses⟩ := courses
  obtain ⟨x, rest, rfl, rfl, rfl⟩ := List.map_eq_cons_iff.mp courses
  rw [← split] at outcomes
  have part : front ++ x :: rest ⊆ choices [] p.courses := outcomes ▸ List.Subset.refl _
  have held : ((front.map Prod.fst).flatMap (chosenIn p)).Perm (front.flatMap chosenFor) :=
    flatMap_chosenIn_perm distinct fun y member => part (List.mem_append_left _ member)
  rw [placeCourse_perm (held.filterMap _)]
  have placed := eq_placeCourse_of_choices outcomes
  rw [List.nil_append] at placed
  rw [← placed]
  exact chosenIn_perm distinct (part (by simp))

end Timetable.Placement
