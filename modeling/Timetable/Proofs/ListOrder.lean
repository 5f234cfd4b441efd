import Mathlib.Data.List.Basic

/-!
# Order in lists

What some operations do to the order of a list. Numbering a list numbers it upwards
(`ordered_zipIdx`). Dropping repetitions leaves the first appearances, in their order
(`pairwise_eraseDups`). Sorting moves no two elements past each other that tie (`filter_mergeSort`),
so what held of two of them because of their order still holds
(`pairwise_mergeSort_of_pairwise`).
-/

namespace Timetable

variable {α : Type}

theorem ordered_zipIdx (l : List α) : l.zipIdx.Pairwise fun a b => a.2 < b.2 := by
  rw [← List.pairwise_map (f := Prod.snd) (R := fun i j => i < j), List.zipIdx_map_snd]
  exact List.pairwise_lt_range'

/-! ## First appearances -/

section FirstAppearance

variable [DecidableEq α] {l : List α} {a b : α}

theorem idxOf_lt_of_filter {keep : α → Bool} (kept : keep b = true)
    (lt : (l.filter keep).idxOf a < (l.filter keep).idxOf b) : l.idxOf a < l.idxOf b := by
  induction l with
  | nil => exact lt
  | cons x rest ih =>
    by_cases there : b = x
    · subst there
      rw [List.filter_cons_of_pos kept, List.idxOf_cons_self] at lt
      omega
    · rw [List.idxOf_cons_ne _ (Ne.symm there)]
      by_cases here : a = x
      · subst here
        rw [List.idxOf_cons_self]
        omega
      · rw [List.idxOf_cons_ne _ (Ne.symm here)]
        refine Nat.succ_lt_succ (ih ?_)
        by_cases passes : keep x = true
        · rw [List.filter_cons_of_pos passes, List.idxOf_cons_ne _ (Ne.symm here),
            List.idxOf_cons_ne _ (Ne.symm there)] at lt
          omega
        · rwa [List.filter_cons_of_neg passes] at lt

/-- Without its repetitions, a list is in the order in which its elements first appear. -/
theorem pairwise_eraseDups : (l : List α) → l.eraseDups.Pairwise fun a b => l.idxOf a < l.idxOf b
  | [] => .nil
  | a :: rest => by
    have others : ∀ b ∈ (rest.filter fun b => !b == a).eraseDups, b ≠ a := by
      intro b among
      simpa using (List.mem_filter.mp (List.mem_eraseDups.mp among)).2
    rw [List.eraseDups_cons, List.pairwise_cons]
    constructor
    · intro b among
      rw [List.idxOf_cons_self, List.idxOf_cons_ne _ (others b among).symm]
      omega
    · refine (pairwise_eraseDups _).imp_of_mem fun {b c} among among' lt => ?_
      have other := others b among
      have other' := others c among'
      rw [List.idxOf_cons_ne _ other.symm, List.idxOf_cons_ne _ other'.symm]
      have before := idxOf_lt_of_filter (by simpa using other') lt
      omega
termination_by l => l.length
decreasing_by exact Nat.lt_succ_of_le (List.length_filter_le _ _)

theorem nodup_eraseDups (l : List α) : l.eraseDups.Nodup := by
  refine (pairwise_eraseDups l).imp fun {a b} lt same => ?_
  subst same
  exact Nat.lt_irrefl _ lt

end FirstAppearance

/-! ## Sorting -/

section Sorting

variable {le : α → α → Bool} {l : List α} (trans : ∀ a b c, le a b → le b c → le a c)
  (total : ∀ a b, le a b || le b a)
include trans total

/-- Elements that tie with each other stay in their order when the list is sorted. -/
theorem filter_mergeSort {keep : α → Bool} (ties : ∀ a b, keep a → keep b → le a b) :
    (l.mergeSort le).filter keep = l.filter keep := by
  -- They are sorted already, so sorting keeps them as a sublist.
  have level : (l.filter keep).Pairwise fun a b => le a b = true := by
    apply List.pairwise_of_forall_mem_list
    intro a among b beside
    exact ties a b (List.mem_filter.mp among).2 (List.mem_filter.mp beside).2
  have kept : (l.filter keep).Sublist (l.mergeSort le) :=
    List.sublist_mergeSort trans total level List.filter_sublist
  have within := kept.filter keep
  rw [List.filter_filter] at within
  simp only [Bool.and_self] at within
  have perm := (List.mergeSort_perm l le).filter keep
  exact (within.eq_of_length perm.length_eq.symm).symm

/-- Of two elements that tie, the one that was in front stays in front. -/
theorem pairwise_mergeSort_of_pairwise {R : α → α → Prop} (before : l.Pairwise R) :
    (l.mergeSort le).Pairwise fun a b => le a b = true ∧ (le b a = true → R a b) := by
  rw [List.pairwise_iff_forall_sublist] at before ⊢
  intro a b front
  have sorted : le a b = true :=
    List.pairwise_iff_forall_sublist.mp (List.pairwise_mergeSort trans total l) front
  refine ⟨sorted, fun back => before ?_⟩
  -- Both are among the elements that tie with the first one.
  have reflexive : le a a = true := trans a b a sorted back
  have tied := front.filter fun x => le a x && le x a
  rw [filter_mergeSort trans total] at tied
  · simp only [List.filter_cons, reflexive, sorted, back, Bool.and_self, if_true, List.filter_nil]
      at tied
    exact tied.trans List.filter_sublist
  · intro x y here there
    rw [Bool.and_eq_true] at here there
    exact trans x a y here.2 there.1

end Sorting

end Timetable
