/-!
# Finite sets of ids

The selection of a plan is a set of section ids, reported in ascending order. An `IdSet` is the
strictly ascending list of its members, so two sets with the same members are equal.
-/

namespace Timetable

/-- A finite set of ids, kept as the strictly ascending list of its members. -/
structure IdSet where
  toList : List Int
  ascending : toList.Pairwise (· < ·)
  deriving DecidableEq

namespace IdSet

/-- Places `id` into an ascending list, once. -/
def insertInto (id : Int) : List Int → List Int
  | [] => [id]
  | x :: rest =>
    if id < x then id :: x :: rest
    else if id = x then x :: rest
    else x :: insertInto id rest

theorem mem_insertInto {id y : Int} : ∀ {l : List Int}, y ∈ insertInto id l ↔ y = id ∨ y ∈ l
  | [] => by simp [insertInto]
  | x :: rest => by
    unfold insertInto
    split
    · simp
    · split
      · next h => subst h; simp
      · simp only [List.mem_cons, mem_insertInto]
        constructor
        · rintro (h | h | h) <;> simp [h]
        · rintro (h | h | h) <;> simp [h]

theorem pairwise_insertInto (id : Int) :
    ∀ {l : List Int}, l.Pairwise (· < ·) → (insertInto id l).Pairwise (· < ·)
  | [], _ => by simp [insertInto]
  | x :: rest, h => by
    have hx : ∀ y ∈ rest, x < y := (List.pairwise_cons.1 h).1
    unfold insertInto
    split
    · next lt =>
      exact List.pairwise_cons.2 ⟨fun y hy => by
        rcases List.mem_cons.1 hy with rfl | hy
        · exact lt
        · exact Int.lt_trans lt (hx y hy), h⟩
    · split
      · exact h
      · refine List.pairwise_cons.2 ⟨fun y hy => ?_, pairwise_insertInto id h.of_cons⟩
        rcases mem_insertInto.1 hy with rfl | hy
        · omega
        · exact hx y hy

/-- The set without members. -/
def empty : IdSet := ⟨[], .nil⟩

instance : Inhabited IdSet := ⟨empty⟩

instance : Membership Int IdSet := ⟨fun s id => id ∈ s.toList⟩

instance (id : Int) (s : IdSet) : Decidable (id ∈ s) :=
  inferInstanceAs (Decidable (id ∈ s.toList))

/-- The set with `id` added. -/
def insert (s : IdSet) (id : Int) : IdSet :=
  ⟨insertInto id s.toList, pairwise_insertInto id s.ascending⟩

@[simp] theorem mem_insert {s : IdSet} {id y : Int} : y ∈ s.insert id ↔ y = id ∨ y ∈ s :=
  mem_insertInto

/-- The set of the members that pass `keep`. -/
def filter (s : IdSet) (keep : Int → Bool) : IdSet :=
  ⟨s.toList.filter keep, s.ascending.filter _⟩

@[simp] theorem mem_filter {s : IdSet} {keep : Int → Bool} {id : Int} :
    id ∈ s.filter keep ↔ id ∈ s ∧ keep id = true :=
  List.mem_filter

/-- The set of the ids in a list. -/
def ofList (ids : List Int) : IdSet :=
  ids.foldl insert empty

theorem mem_foldl_insert {id : Int} :
    ∀ {ids : List Int} {s : IdSet}, id ∈ ids.foldl insert s ↔ id ∈ s ∨ id ∈ ids
  | [], s => by simp
  | x :: rest, s => by
    rw [List.foldl_cons, mem_foldl_insert, mem_insert, List.mem_cons]
    constructor
    · rintro ((h | h) | h) <;> simp [h]
    · rintro (h | h | h) <;> simp [h]

@[simp] theorem mem_ofList {id : Int} {ids : List Int} : id ∈ ofList ids ↔ id ∈ ids := by
  rw [ofList, mem_foldl_insert]
  exact ⟨fun h => h.resolve_left (List.not_mem_nil), Or.inr⟩

/-- The number of members. -/
def size (s : IdSet) : Nat := s.toList.length

end IdSet

end Timetable
