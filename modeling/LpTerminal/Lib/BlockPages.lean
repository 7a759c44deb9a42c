import Mathlib.Data.List.Sort

/-!
Pages by a number that many rows share: a full page may cut the rows of its last number, so those are
read again as pages by the key.
-/

namespace BlockPages

variable {ρ : Type*} {block : ρ → Nat} {all rows : List ρ} {after first : Nat}

def IsPage (block : ρ → Nat) (all : List ρ) (after first : Nat) (rows : List ρ) : Prop :=
  ∃ order : List ρ, order.Perm all ∧ (order.Pairwise fun left right => block left ≤ block right) ∧
    rows = (order.filter fun row => after < block row).take first

section

variable (page : IsPage block all after first rows)
include page

theorem IsPage.short (short : rows.length < first) :
    rows.Perm (all.filter fun row => after < block row) := by
  obtain ⟨order, perm, _, rfl⟩ := page
  rw [List.length_take] at short
  have whole : (order.filter fun row => after < block row).length ≤ first := by omega
  rw [List.take_of_length_le whole]
  exact perm.filter _

theorem IsPage.later {row : ρ} (member : row ∈ rows) : row ∈ all ∧ after < block row := by
  obtain ⟨order, perm, _, rfl⟩ := page
  obtain ⟨inside, later⟩ := List.mem_filter.mp (List.mem_of_mem_take member)
  exact ⟨perm.subset inside, by simpa using later⟩

theorem IsPage.sorted : rows.Pairwise fun left right => block left ≤ block right := by
  obtain ⟨order, _, sorted, rfl⟩ := page
  exact (sorted.filter _).sublist (List.take_sublist _ _)

theorem IsPage.before_last {last : ρ} (ends : rows.getLast? = some last) :
    (rows.filter fun row => block row < block last).Perm (all.filter fun row => after < block row ∧ block row < block last) := by
  obtain ⟨order, perm, sorted, rfl⟩ := page
  have ordered := sorted.filter fun row => decide (after < block row)
  rw [← List.take_append_drop first (order.filter fun row => after < block row)] at ordered
  obtain ⟨_, _, across⟩ := List.pairwise_append.mp ordered
  have shown : last ∈ (order.filter fun row => after < block row).take first := List.mem_of_getLast? ends
  have none : ((order.filter fun row => after < block row).drop first).filter (fun row => block row < block last) = [] :=
    List.filter_eq_nil_iff.mpr fun row member => by simpa using across last shown row member
  have split : ((order.filter fun row => after < block row).take first).filter (fun row => block row < block last) =
      (order.filter fun row => after < block row).filter fun row => block row < block last := by
    conv_rhs => rw [← List.take_append_drop first (order.filter fun row => after < block row), List.filter_append, none,
      List.append_nil]
  rw [split, List.filter_filter]
  refine (perm.filter _).trans (List.Perm.of_eq (List.filter_congr fun row _ => ?_))
  simp [Bool.and_comm]

theorem IsPage.patched {last : ρ} (ends : rows.getLast? = some last) {tail : List ρ}
    (whole : tail.Perm (all.filter fun row => block row = block last)) :
    ((rows.filter fun row => block row < block last) ++ tail).Perm (all.filter fun row => after < block row ∧ block row ≤ block last) := by
  have beyond := (page.later (List.mem_of_getLast? ends)).2
  have parts := (page.before_last ends).append whole
  refine parts.trans ?_
  have divide := List.filter_append_perm (fun row => decide (block row < block last))
    (all.filter fun row => after < block row ∧ block row ≤ block last)
  rw [List.filter_filter, List.filter_filter] at divide
  refine List.Perm.trans (List.Perm.of_eq ?_) divide
  congr 1
  · refine List.filter_congr fun row _ => ?_
    by_cases early : block row < block last
    · simp [early, early.le]
    · simp [early]
  · refine List.filter_congr fun row _ => ?_
    by_cases own : block row = block last
    · simp [own, beyond]
    · by_cases early : block row < block last
      · simp [own, early]
      · have past : block last < block row := lt_of_le_of_ne (not_lt.mp early) (Ne.symm own)
        simp [own, past]

theorem IsPage.patched_length {last : ρ} (ends : rows.getLast? = some last) {tail : List ρ}
    (whole : tail.Perm (all.filter fun row => block row = block last)) :
    rows.length ≤ ((rows.filter fun row => block row < block last) ++ tail).length := by
  rw [(page.patched ends whole).length_eq]
  have least : ∀ row ∈ rows, block row ≤ block last := by
    intro row member
    obtain ⟨front, split⟩ := List.getLast?_eq_some_iff.mp ends
    have sorted := page.sorted
    rw [split] at sorted member
    rcases List.mem_append.mp member with early | own
    · exact (List.pairwise_append.mp sorted).2.2 row early last List.mem_cons_self
    · rw [List.mem_singleton.mp own]
  obtain ⟨order, perm, _, rfl⟩ := page
  have kept : ((order.filter fun row => after < block row).take first).Sublist
      (order.filter fun row => after < block row ∧ block row ≤ block last) := by
    have inside : ((order.filter fun row => after < block row).take first).filter (fun row => block row ≤ block last) =
        (order.filter fun row => after < block row).take first := List.filter_eq_self.mpr fun row member => by simpa using least row member
    rw [← inside]
    have narrowed : (order.filter fun row => after < block row).filter (fun row => block row ≤ block last) =
        order.filter fun row => after < block row ∧ block row ≤ block last := by
      rw [List.filter_filter]
      exact List.filter_congr fun row _ => by simp [Bool.and_comm]
    rw [← narrowed]
    exact (List.take_sublist first _).filter _
  exact kept.length_le.trans (perm.filter _).length_eq.le

end

theorem extend {later : Nat} (ordered : after ≤ later) (between : rows.Perm (all.filter fun row => after < block row ∧ block row ≤ later)) :
    (all.filter fun row => block row ≤ later).Perm ((all.filter fun row => block row ≤ after) ++ rows) := by
  have divide := List.filter_append_perm (fun row => decide (block row ≤ after)) (all.filter fun row => block row ≤ later)
  rw [List.filter_filter, List.filter_filter] at divide
  refine divide.symm.trans (List.Perm.append (List.Perm.of_eq ?_) (List.Perm.trans (List.Perm.of_eq ?_) between.symm))
  · refine List.filter_congr fun row _ => ?_
    by_cases early : block row ≤ after
    · simp [early, early.trans ordered]
    · simp [early]
  · refine List.filter_congr fun row _ => ?_
    by_cases early : block row ≤ after
    · simp [early, not_lt.mpr early]
    · simp [early, not_le.mp early]

theorem narrowed {later : Nat} (whole : rows.Perm (all.filter fun row => after < block row))
    (most : ∀ row ∈ rows, block row ≤ later) : rows.Perm (all.filter fun row => after < block row ∧ block row ≤ later) := by
  refine whole.trans (List.Perm.of_eq (List.filter_congr fun row member => ?_))
  by_cases beyond : after < block row
  · have within := most row (whole.symm.subset (List.mem_filter.mpr ⟨member, by simpa using beyond⟩))
    simp [beyond, within]
  · simp [beyond]

end BlockPages
