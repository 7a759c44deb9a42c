import Mathlib.Algebra.BigOperators.Group.Finset.Basic

/-!
Rows put into buckets by key, the buckets in the order their keys first occur.
-/

namespace Buckets

variable {κ ρ M : Type*} [DecidableEq κ] {key : ρ → κ}

def push (key : κ) (row : ρ) : List (κ × List ρ) → List (κ × List ρ)
  | [] => [(key, [row])]
  | (other, bucket) :: rest => if other = key then (other, bucket ++ [row]) :: rest else (other, bucket) :: push key row rest

def group (key : ρ → κ) (rows : List ρ) : List (κ × List ρ) :=
  rows.foldl (fun buckets row => push (key row) row buckets) []

theorem push_map {k : κ} {row : ρ} {keys : List κ} {held : κ → List ρ} (distinct : keys.Nodup) (fresh : k ∉ keys → held k = []) :
    push k row (keys.map fun other => (other, held other)) =
      (if k ∈ keys then keys else keys ++ [k]).map fun other => (other, if other = k then held other ++ [row] else held other) := by
  induction keys with
  | nil => simp [push, fresh]
  | cons first rest ih =>
    obtain ⟨missing, later⟩ := List.nodup_cons.mp distinct
    rw [List.map_cons, push]
    split
    · rename_i same
      subst same
      have others : ∀ other ∈ rest, other ≠ first := fun other member same => missing (same ▸ member)
      simp only [List.mem_cons, true_or, if_true, List.map_cons]
      exact congrArg _ (List.map_congr_left fun other member => by rw [if_neg (others other member)])
    · rename_i different
      have absent : k ∉ rest → held k = [] := fun missing => fresh (by simpa [Ne.symm different] using missing)
      rw [ih later absent]
      by_cases known : k ∈ rest
      · simp [known, different]
      · simp [known, different, Ne.symm different]

theorem group_eq (rows : List ρ) : ∃ keys : List κ, keys.Nodup ∧ (∀ k, k ∈ keys ↔ ∃ row ∈ rows, key row = k) ∧
    group key rows = keys.map fun k => (k, rows.filter fun row => key row = k) := by
  induction rows using List.reverseRecOn with
  | nil => exact ⟨[], List.nodup_nil, by simp, rfl⟩
  | append_singleton rows row ih =>
    obtain ⟨keys, distinct, occurs, grouped⟩ := ih
    refine ⟨if key row ∈ keys then keys else keys ++ [key row], ?_, fun k => ?_, ?_⟩
    · split
      · exact distinct
      · rename_i missing
        exact List.nodup_append.mpr ⟨distinct, List.nodup_singleton _, fun a member b last => by
          rw [List.mem_singleton.mp last]; exact fun same => missing (same ▸ member)⟩
    · have old := occurs k
      by_cases known : key row ∈ keys
      · simp only [known, if_true, List.mem_append, List.mem_singleton, or_and_right, exists_or, exists_eq_left, old]
        exact ⟨Or.inl, fun found => found.elim (fun before => before) fun same => same ▸ (occurs _).mp known⟩
      · simp only [known, if_false, List.mem_append, List.mem_singleton, or_and_right, exists_or, exists_eq_left, old,
          eq_comm (a := k)]
    · have step : group key (rows ++ [row]) = push (key row) row (group key rows) := by
        unfold group
        rw [List.foldl_append, List.foldl_cons, List.foldl_nil]
      have fresh : key row ∉ keys → rows.filter (fun other => key other = key row) = [] := fun missing =>
        List.filter_eq_nil_iff.mpr fun other member => by
          simpa using fun same => missing ((occurs _).mpr ⟨other, member, same⟩)
      rw [step, grouped, push_map distinct fresh]
      refine List.map_congr_left fun k _ => ?_
      rw [List.filter_append]
      by_cases own : k = key row
      · simp [own]
      · simp [own, Ne.symm own]

theorem sum_group [AddCommMonoid M] {rows : List ρ} {value : List ρ → M} (nothing : value [] = 0) {keys : Finset κ}
    (covers : ∀ row ∈ rows, key row ∈ keys) :
    ((group key rows).map fun bucket => value bucket.2).sum = ∑ k ∈ keys, value (rows.filter fun row => key row = k) := by
  obtain ⟨own, distinct, occurs, grouped⟩ := @group_eq _ _ _ key rows
  have inside : own.toFinset ⊆ keys := fun k member => by
    obtain ⟨row, found, rfl⟩ := (occurs k).mp (List.mem_toFinset.mp member)
    exact covers row found
  rw [grouped, List.map_map, ← List.sum_toFinset _ distinct]
  refine Finset.sum_subset inside fun k _ missing => ?_
  have empty : rows.filter (fun row => key row = k) = [] := List.filter_eq_nil_iff.mpr fun row member => by
    simpa using fun same => missing (List.mem_toFinset.mpr ((occurs k).mpr ⟨row, member, same⟩))
  rw [Function.comp_apply, empty, nothing]

end Buckets
