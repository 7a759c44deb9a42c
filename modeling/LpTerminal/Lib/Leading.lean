import Mathlib.Data.Finset.Sort

/-!
The first elements of a finite set in its order, up to a limit.
-/

variable {α : Type*} [LinearOrder α]

/-- The page has the least elements of the set, all of them or as many as the limit. -/
structure Leading (limit : ℕ) (wanted : Finset α) (page : List α) : Prop where
  ascending : page.Pairwise (· < ·)
  inside : ∀ x ∈ page, x ∈ wanted
  short : page.length ≤ limit
  first : ∀ x ∈ wanted, x ∈ page ∨ page.length = limit ∧ ∀ y ∈ page, y < x

namespace Leading

variable {limit : ℕ} {wanted small : Finset α} {page other : List α}

/-- The elements of the set before `x`. -/
def before (wanted : Finset α) (x : α) : Finset α := wanted.filter (· < x)

section

variable (leading : Leading limit wanted page)
include leading

theorem card_toFinset : page.toFinset.card = page.length :=
  List.toFinset_card_of_nodup (leading.ascending.imp ne_of_lt)

theorem mem_of_before {x : α} (inside : x ∈ wanted) (few : (before wanted x).card < limit) :
    x ∈ page := by
  rcases leading.first x inside with shown | ⟨full, below⟩
  · exact shown
  · have filled : page.toFinset ⊆ before wanted x := by
      intro y member
      rw [List.mem_toFinset] at member
      exact Finset.mem_filter.mpr ⟨leading.inside y member, below y member⟩
    have more := Finset.card_le_card filled
    rw [leading.card_toFinset, full] at more
    omega

theorem subset (same : Leading limit wanted other) {x : α} (shown : x ∈ page) : x ∈ other := by
  rcases same.first x (leading.inside x shown) with there | ⟨full, below⟩
  · exact there
  · -- a full page before `x` is part of the first page, which has `x` as well
    have part : insert x other.toFinset ⊆ page.toFinset := by
      intro y member
      rw [List.mem_toFinset]
      rcases Finset.mem_insert.mp member with rfl | old
      · exact shown
      · rw [List.mem_toFinset] at old
        rcases leading.first y (same.inside y old) with here | ⟨-, above⟩
        · exact here
        · exact absurd (above x shown) (below y old).not_gt
    have absent : x ∉ other.toFinset := fun member => lt_irrefl x (below x (List.mem_toFinset.mp member))
    have more := Finset.card_le_card part
    rw [Finset.card_insert_of_notMem absent, leading.card_toFinset, same.card_toFinset] at more
    have bound := leading.short
    omega

theorem unique (same : Leading limit wanted other) : page = other := by
  refine List.Pairwise.eq_of_mem_iff leading.ascending same.ascending fun x => ?_
  exact ⟨leading.subset same, same.subset leading⟩

theorem narrow (part : small ⊆ wanted) (all : ∀ x ∈ page, x ∈ small) :
    Leading limit small page :=
  ⟨leading.ascending, all, leading.short, fun x inside => leading.first x (part inside)⟩

end

theorem take_sort (limit : ℕ) (wanted : Finset α) : Leading limit wanted ((wanted.sort (· ≤ ·)).take limit) where
  ascending := (Finset.sortedLT_sort wanted).pairwise.sublist (List.take_sublist _ _)
  inside x member := (Finset.mem_sort (· ≤ ·)).mp (List.mem_of_mem_take member)
  short := List.length_take_le limit _
  first x inside := by
    have sorted := (Finset.sortedLT_sort wanted).pairwise
    rw [← Finset.mem_sort (· ≤ ·), ← List.take_append_drop limit (wanted.sort (· ≤ ·))] at inside
    rw [← List.take_append_drop limit (wanted.sort (· ≤ ·))] at sorted
    rcases List.mem_append.mp inside with shown | left
    · exact .inl shown
    · have beyond : limit < (wanted.sort (· ≤ ·)).length := by
        have positive := List.length_pos_of_mem left
        rw [List.length_drop] at positive
        omega
      exact .inr ⟨List.length_take_of_le beyond.le, fun y shown => (List.pairwise_append.mp sorted).2.2 y shown x left⟩

theorem before_of_mem (leading : Leading limit wanted page) {x : α} (shown : x ∈ page) : (before wanted x).card < limit := by
  have part : insert x (before wanted x) ⊆ page.toFinset := by
    intro y member
    rw [List.mem_toFinset]
    rcases Finset.mem_insert.mp member with rfl | old
    · exact shown
    · obtain ⟨inside, below⟩ := Finset.mem_filter.mp old
      rcases leading.first y inside with here | ⟨-, above⟩
      · exact here
      · exact absurd (above x shown) below.not_gt
  have more := Finset.card_le_card part
  rw [Finset.card_insert_of_notMem (by simp [before]), leading.card_toFinset] at more
  have bound := leading.short
  omega

theorem widen_iff (leading : Leading limit small page) (part : small ⊆ wanted) :
    Leading limit wanted page ↔ ∀ x ∈ wanted, (before wanted x).card < limit → x ∈ small := by
  constructor
  · exact fun whole x inside few => leading.inside x (whole.mem_of_before inside few)
  · intro has
    have sorted := take_sort limit wanted
    have within : Leading limit small ((wanted.sort (· ≤ ·)).take limit) :=
      sorted.narrow part fun x shown => has x (sorted.inside x shown) (sorted.before_of_mem shown)
    rw [leading.unique within]
    exact sorted

theorem iff_take_sort : Leading limit wanted page ↔ page = (wanted.sort (· ≤ ·)).take limit :=
  ⟨fun leading => leading.unique (take_sort limit wanted), fun same => same ▸ take_sort limit wanted⟩

theorem drop_sort {last : α} (ends : ((wanted.sort (· ≤ ·)).take limit).getLast? = some last) :
    (wanted.sort (· ≤ ·)).drop limit = (wanted.filter (last < ·)).sort (· ≤ ·) := by
  have sorted := (Finset.sortedLT_sort wanted).pairwise
  rw [← List.take_append_drop limit (wanted.sort (· ≤ ·))] at sorted
  obtain ⟨front, rest, across⟩ := List.pairwise_append.mp sorted
  have shown := List.mem_of_getLast? ends
  refine List.Pairwise.eq_of_mem_iff rest (Finset.sortedLT_sort _).pairwise fun x => ?_
  rw [Finset.mem_sort, Finset.mem_filter, ← Finset.mem_sort (s := wanted) (· ≤ ·)]
  constructor
  · exact fun left => ⟨List.mem_of_mem_drop left, across last shown x left⟩
  · rintro ⟨inside, beyond⟩
    rw [← List.take_append_drop limit (wanted.sort (· ≤ ·))] at inside
    rcases List.mem_append.mp inside with early | left
    · obtain ⟨others, split⟩ := List.getLast?_eq_some_iff.mp ends
      rw [split] at early front
      rcases List.mem_append.mp early with old | own
      · exact absurd ((List.pairwise_append.mp front).2.2 x old last List.mem_cons_self) beyond.not_gt
      · exact absurd (List.mem_singleton.mp own) beyond.ne'
    · exact left

end Leading

theorem mem_take_of_sorted {rows : List α} (sorted : rows.Pairwise (· ≤ ·)) {limit : ℕ} {x : α} :
    x ∈ rows.take limit ↔ x ∈ rows ∧ (rows.filter (· < x)).length < limit := by
  constructor
  · intro shown
    refine ⟨List.mem_of_mem_take shown, ?_⟩
    obtain ⟨early, late, split⟩ := List.append_of_mem shown
    have whole : rows = early ++ x :: (late ++ rows.drop limit) := by
      rw [← List.cons_append, ← List.append_assoc, ← split, List.take_append_drop]
    have bound : early.length < limit := by
      have total := congrArg List.length split
      rw [List.length_take, List.length_append, List.length_cons] at total
      omega
    rw [whole] at sorted ⊢
    have none : (x :: (late ++ rows.drop limit)).filter (· < x) = [] := by
      refine List.filter_eq_nil_iff.mpr fun y member => ?_
      rcases List.mem_cons.mp member with rfl | after
      · simp
      · simpa using (List.pairwise_cons.mp (List.pairwise_append.mp sorted).2.1).1 y after
    rw [List.filter_append, none, List.append_nil]
    exact (List.length_filter_le _ early).trans_lt bound
  · rintro ⟨inside, few⟩
    rw [← List.take_append_drop limit rows] at inside
    rcases List.mem_append.mp inside with shown | left
    · exact shown
    · by_contra absent
      rw [← List.take_append_drop limit rows] at sorted
      have below : ∀ y ∈ rows.take limit, y < x := fun y shown =>
        lt_of_le_of_ne ((List.pairwise_append.mp sorted).2.2 y shown x left) fun same => absent (same ▸ shown)
      have full : (rows.take limit).length = limit := by
        have positive := List.length_pos_of_mem left
        rw [List.length_drop] at positive
        rw [List.length_take]
        omega
      have many : ((rows.take limit).filter (· < x)).length = limit := by
        rw [List.filter_eq_self.mpr fun y shown => decide_eq_true (below y shown), full]
      have more := ((List.take_sublist limit rows).filter (· < x)).length_le
      omega
