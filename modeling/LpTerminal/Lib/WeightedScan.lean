import Mathlib.Algebra.Order.BigOperators.Group.List
import Mathlib.Algebra.Order.Field.Basic
import Mathlib.Data.List.Sort
import Mathlib.Tactic.Linarith

/-!
The element of a list at which a running weight reaches a bound, and what a part of a list has to weigh to hold all the
elements of a kind.
-/

namespace WeightedScan

variable {α K : Type*}

section Total

variable [AddCommMonoid K] {weight : α → K} {xs ys : List α} {x : α}

def total (weight : α → K) (xs : List α) : K := (xs.map weight).sum

@[simp] theorem total_nil : total weight ([] : List α) = 0 := rfl

@[simp] theorem total_cons : total weight (x :: xs) = weight x + total weight xs := by
  simp [total]

@[simp] theorem total_append : total weight (xs ++ ys) = total weight xs + total weight ys := by
  simp [total]

theorem total_perm (perm : xs.Perm ys) : total weight xs = total weight ys :=
  (perm.map weight).sum_eq

theorem total_filter (xs : List α) (p : α → Bool) :
    total weight (xs.filter p) + total weight (xs.filter fun x => !p x) = total weight xs := by
  rw [← total_append]
  exact total_perm (List.filter_append_perm p xs)

end Total

variable [Field K] [LinearOrder K] [IsStrictOrderedRing K] {weight : α → K} {xs : List α} {x : α}

theorem total_nonneg (nonneg : ∀ x ∈ xs, 0 ≤ weight x) : 0 ≤ total weight xs := by
  apply List.sum_nonneg
  simpa using nonneg

theorem total_filter_le (nonneg : ∀ x ∈ xs, 0 ≤ weight x) (p : α → Bool) :
    total weight (xs.filter p) ≤ total weight xs := by
  have rest : 0 ≤ total weight (xs.filter fun x => !p x) :=
    total_nonneg fun x member => nonneg x (List.mem_of_mem_filter member)
  have parts : total weight (xs.filter p) + total weight (xs.filter fun x => !p x) = total weight xs := total_filter xs p
  linarith

theorem exists_outside {part outside : List α} (nonneg : ∀ x ∈ xs, 0 ≤ weight x) (perm : xs.Perm (part ++ outside))
    (p : α → Bool) (heavy : total weight part < total weight (xs.filter p)) : ∃ x ∈ outside, p x := by
  by_contra none
  have missing : outside.filter p = [] := by
    apply List.filter_eq_nil_iff.mpr
    intro x member kind
    exact none ⟨x, member, kind⟩
  have inside : total weight (xs.filter p) = total weight (part.filter p) := by
    rw [total_perm (perm.filter p), List.filter_append, missing, List.append_nil]
  have small : total weight (part.filter p) ≤ total weight part := by
    apply total_filter_le
    intro x member
    exact nonneg x (perm.symm.subset (List.mem_append_left _ member))
  linarith

/-- The first element at which the weight passed, from `acc` on, reaches `bound`. -/
def reach (weight : α → K) (bound : K) : K → List α → Option α
  | _, [] => none
  | acc, x :: rest => if bound ≤ acc + weight x then some x else reach weight bound (acc + weight x) rest

omit [IsStrictOrderedRing K] in
theorem reach_split {bound acc : K} (below : acc < bound) (enough : bound ≤ acc + total weight xs) :
    ∃ before after, ∃ x, xs = before ++ x :: after ∧ reach weight bound acc xs = some x ∧
      acc + total weight before < bound ∧ bound ≤ acc + total weight before + weight x := by
  induction xs generalizing acc with
  | nil =>
    simp only [total_nil, add_zero] at enough
    exact absurd enough (not_le.mpr below)
  | cons first rest ih =>
    by_cases stops : bound ≤ acc + weight first
    · exact ⟨[], rest, first, rfl, by simp [reach, stops], by simpa using below, by simpa using stops⟩
    · rw [total_cons, ← add_assoc] at enough
      obtain ⟨before, after, x, split, found, less, reached⟩ := ih (not_le.mp stops) enough
      refine ⟨first :: before, after, x, by rw [split, List.cons_append], by simpa [reach, stops] using found, ?_, ?_⟩
      · rwa [total_cons, ← add_assoc]
      · rwa [total_cons, ← add_assoc]

section Sorted

variable {β : Type*} [LinearOrder β] {value : α → β}

theorem le_total_upTo (sorted : xs.Pairwise fun x y => value x ≤ value y) (nonneg : ∀ x ∈ xs, 0 ≤ weight x)
    {before after : List α} (split : xs = before ++ x :: after) :
    total weight before + weight x ≤ total weight (xs.filter fun y => value y ≤ value x) := by
  subst split
  have upTo : ∀ y ∈ before, value y ≤ value x := fun y member =>
    (List.pairwise_append.mp sorted).2.2 y member x List.mem_cons_self
  have kept : before.filter (fun y => value y ≤ value x) = before := by
    apply List.filter_eq_self.mpr
    intro y member
    exact decide_eq_true (upTo y member)
  have rest : 0 ≤ total weight (after.filter fun y => value y ≤ value x) := by
    apply total_nonneg
    intro y member
    exact nonneg y (List.mem_append_right _ (List.mem_cons_of_mem x (List.mem_of_mem_filter member)))
  rw [List.filter_append, kept, List.filter_cons_of_pos (by simp), total_append, total_cons]
  linarith

theorem total_from_le (sorted : xs.Pairwise fun x y => value x ≤ value y) (nonneg : ∀ x ∈ xs, 0 ≤ weight x)
    {before after : List α} (split : xs = before ++ x :: after) :
    total weight xs - total weight before ≤ total weight (xs.filter fun y => value x ≤ value y) := by
  subst split
  have late : ∀ y ∈ x :: after, value x ≤ value y := by
    intro y member
    rcases List.mem_cons.mp member with rfl | later
    · exact le_rfl
    · exact List.rel_of_pairwise_cons (List.pairwise_append.mp sorted).2.1 later
  have kept : (x :: after).filter (fun y => value x ≤ value y) = x :: after := by
    apply List.filter_eq_self.mpr
    intro y member
    exact decide_eq_true (late y member)
  have rest : 0 ≤ total weight (before.filter fun y => value x ≤ value y) := by
    apply total_nonneg
    intro y member
    exact nonneg y (List.mem_append_left _ (List.mem_of_mem_filter member))
  rw [List.filter_append, kept, total_append, total_append]
  linarith

end Sorted

end WeightedScan
