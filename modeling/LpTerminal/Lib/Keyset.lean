import LpTerminal.Lib.Table

/-!
Pages of a table by its key: each page starts after the last key of the page before.
-/

namespace Table

variable {κ ρ : Type*} [LinearOrder κ] {key : ρ → κ} {table : Table key} {cursor : Option κ} {limit : Nat} {row : ρ}

def after (table : Table key) (cursor : Option κ) : List ρ := table.rows.filter fun row => ∀ k ∈ cursor, k < key row

def page (table : Table key) (cursor : Option κ) (limit : Nat) : List ρ := (table.after cursor).take limit

theorem mem_after : row ∈ table.after cursor ↔ row ∈ table.rows ∧ ∀ k ∈ cursor, k < key row := by
  simp [after]

@[simp] theorem after_none : table.after none = table.rows := by
  simp [after]

theorem after_sorted : (table.after cursor).Pairwise fun first second => key first < key second :=
  table.sorted.filter _

theorem page_subset (member : row ∈ table.page cursor limit) : row ∈ table.rows :=
  (mem_after.mp (List.mem_of_mem_take member)).1

theorem after_narrow {later : κ} (beyond : ∀ k ∈ cursor, k ≤ later) :
    table.after (some later) = (table.after cursor).filter fun row => later < key row := by
  unfold after
  rw [List.filter_filter]
  refine List.filter_congr fun row _ => ?_
  by_cases past : later < key row
  · have early : ∀ k ∈ cursor, k < key row := fun k member => (beyond k member).trans_lt past
    simp only [past, Option.mem_def, Option.some.injEq, forall_eq', decide_true, Bool.true_and]
    exact (decide_eq_true early).symm
  · simp [past]

theorem after_last {last : ρ} (ends : (table.page cursor limit).getLast? = some last) :
    table.after (some (key last)) = (table.after cursor).drop limit := by
  have shown : last ∈ table.page cursor limit := List.mem_of_getLast? ends
  have beyond := (mem_after.mp (List.mem_of_mem_take shown)).2
  have narrowed : table.after (some (key last)) = (table.after cursor).filter fun row => key last < key row :=
    after_narrow fun k member => (beyond k member).le
  have sorted := @after_sorted _ _ _ key table cursor
  rw [narrowed]
  unfold page at ends shown
  rw [← List.take_append_drop limit (table.after cursor)] at sorted
  obtain ⟨front, -, across⟩ := List.pairwise_append.mp sorted
  calc (table.after cursor).filter (fun row => key last < key row)
      = ((table.after cursor).take limit ++ (table.after cursor).drop limit).filter fun row => key last < key row := by
        rw [List.take_append_drop]
    _ = ((table.after cursor).take limit).filter (fun row => key last < key row) ++
        ((table.after cursor).drop limit).filter fun row => key last < key row := List.filter_append _ _
    _ = [] ++ (table.after cursor).drop limit := by
        refine congrArg₂ _ (List.filter_eq_nil_iff.mpr fun row member => ?_) (List.filter_eq_self.mpr fun row member => ?_)
        · obtain ⟨before, split⟩ := List.getLast?_eq_some_iff.mp ends
          rw [split] at member front
          rcases List.mem_append.mp member with early | own
          · have order := (List.pairwise_append.mp front).2.2 row early last List.mem_cons_self
            simpa using order.le
          · obtain rfl := List.mem_singleton.mp own
            simp
        · simpa using across last shown row member
    _ = (table.after cursor).drop limit := rfl

section Walks

variable {listed : Table (fun k : κ => k)} {start : κ} {ids : List κ} {next : Option κ}

/-- One page of the keys after `start`, with the cursor of the page after it. -/
structure Paged (listed : Table (fun k : κ => k)) (start : κ) (limit : Nat) (ids : List κ) (next : Option κ) : Prop where
  shown : ids = listed.page (some start) limit
  next : next = if limit < (listed.after (some start)).length then (listed.page (some start) limit).getLast? else none

theorem paged_fetch {rows : List ρ} (same : listed.rows = rows.map key) {fetched : List ρ}
    (query : fetched = (rows.filter fun row => start < key row).take (limit + 1)) :
    Paged listed start limit ((fetched.take limit).map key)
      (if limit < fetched.length then (fetched.take limit).getLast?.map key else none) := by
  subst query
  generalize found : rows.filter (fun row => decide (start < key row)) = rest
  have after : rest.map key = listed.after (some start) := by
    unfold Table.after
    rw [same, List.filter_map, ← found]
    simp [Function.comp_def]
  have cut : (rest.take (limit + 1)).take limit = rest.take limit := by rw [List.take_take, min_eq_left (Nat.le_succ limit)]
  have shown : (rest.take limit).map key = listed.page (some start) limit := by
    unfold page
    rw [List.map_take, after]
  rw [cut, ← List.getLast?_map, shown]
  refine ⟨rfl, ?_⟩
  rw [← after, List.length_map, List.length_take]
  exact if_congr (by omega) rfl rfl

theorem Paged.last (paged : Paged listed start limit ids none) (positive : 1 ≤ limit) : ids = listed.after (some start) := by
  have told := paged.next
  rw [paged.shown]
  unfold page
  refine List.take_of_length_le (not_lt.mp fun room => ?_)
  rw [if_pos room, eq_comm, List.getLast?_eq_none_iff] at told
  have length := congrArg List.length told
  unfold page at length
  rw [List.length_take, List.length_nil] at length
  omega

theorem Paged.more {last : κ} (paged : Paged listed start limit ids (some last)) (positive : 1 ≤ limit) :
    ids ++ listed.after (some last) = listed.after (some start) ∧
      (listed.after (some last)).length < (listed.after (some start)).length := by
  have told := paged.next
  split at told
  · rename_i room
    have dropped := after_last told.symm
    rw [paged.shown, dropped]
    refine ⟨List.take_append_drop _ _, ?_⟩
    rw [List.length_drop]
    omega
  · cases told

theorem Paged.rises {last : κ} (paged : Paged listed start limit ids (some last)) : start < last := by
  have told := paged.next
  split at told
  · exact (mem_after.mp (List.mem_of_mem_take (List.mem_of_getLast? told.symm))).2 start rfl
  · cases told

end Walks

end Table
