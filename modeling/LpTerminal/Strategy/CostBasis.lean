import Mathlib.Data.Nat.Notation

/-! The search for the block of a mint: the first one at which the position exists. -/

namespace LpTerminal.Strategy

/-- The loop, with the blocks it asks for. -/
def search (existsAt : ℕ → Bool) (lower upper : ℕ) : ℕ × List ℕ :=
  if lower < upper then
    let middle := (lower + upper) / 2
    let rest := if existsAt middle then search existsAt lower middle else search existsAt (middle + 1) upper
    (rest.1, middle :: rest.2)
  else (lower, [])
termination_by upper - lower

/-- `none` where it throws. -/
def firstExistingBlock (upperBlock : ℕ) (existsAt : ℕ → Bool) : Option ℕ × List ℕ :=
  if existsAt upperBlock then
    let (block, probes) := search existsAt 0 upperBlock
    (some block, upperBlock :: probes)
  else (none, [upperBlock])

variable {existsAt : ℕ → Bool}

/-- The predicate is true at the upper bound and false below the lower one, all along. -/
theorem search_least {upperBlock : ℕ} (later : ∀ b c, b ≤ c → c ≤ upperBlock → existsAt b → existsAt c) {lower upper : ℕ}
    (ordered : lower ≤ upper) (inside : upper ≤ upperBlock) (true_upper : existsAt upper) (false_below : ∀ b < lower, ¬existsAt b) :
    existsAt (search existsAt lower upper).1 ∧ (∀ b < (search existsAt lower upper).1, ¬existsAt b) ∧
      ∀ probe ∈ (search existsAt lower upper).2, lower ≤ probe ∧ probe < upper := by
  fun_induction search existsAt lower upper with
  | case1 lower upper less middle rest ih1 ih2 =>
    have bounds : lower ≤ middle ∧ middle < upper := by omega
    have halves : existsAt rest.1 ∧ (∀ b < rest.1, ¬existsAt b) ∧ ∀ probe ∈ rest.2, lower ≤ probe ∧ probe < upper := by
      by_cases found : existsAt middle
      · obtain ⟨here, before, probes⟩ := ih1 bounds.1 (by omega) found false_below
        simp only [rest, found]
        exact ⟨here, before, fun probe asked => ⟨(probes probe asked).1, Nat.lt_trans (probes probe asked).2 bounds.2⟩⟩
      · have below : ∀ b < middle + 1, ¬existsAt b :=
          fun b less there => found (later b middle (by omega) (by omega) there)
        obtain ⟨here, before, probes⟩ := ih2 (by omega) inside true_upper below
        simp only [rest, found]
        exact ⟨here, before, fun probe asked => ⟨by have := (probes probe asked).1; omega, (probes probe asked).2⟩⟩
    refine ⟨halves.1, halves.2.1, fun probe asked => ?_⟩
    rcases List.mem_cons.mp asked with rfl | deeper
    · exact bounds
    · exact halves.2.2 probe deeper
  | case2 lower upper done =>
    obtain rfl : lower = upper := by omega
    exact ⟨true_upper, false_below, by simp⟩

theorem first_existing_block (upperBlock : ℕ) (existsAt : ℕ → Bool)
    (later : ∀ b c, b ≤ c → c ≤ upperBlock → existsAt b → existsAt c) :
    (∀ probe ∈ (firstExistingBlock upperBlock existsAt).2, probe ≤ upperBlock) ∧
      match (firstExistingBlock upperBlock existsAt).1 with
      | some block => block ≤ upperBlock ∧ existsAt block ∧ ∀ b < block, ¬existsAt b
      | none => ∀ b ≤ upperBlock, ¬existsAt b := by
  unfold firstExistingBlock
  by_cases exists_upper : existsAt upperBlock
  · obtain ⟨here, before, probes⟩ := search_least later (Nat.zero_le _) (Nat.le_refl _) exists_upper (by simp)
    rw [if_pos exists_upper]
    refine ⟨fun probe asked => ?_, ?_, here, before⟩
    · rcases List.mem_cons.mp asked with rfl | deeper
      · exact Nat.le_refl _
      · exact Nat.le_of_lt (probes probe deeper).2
    · exact Nat.not_lt.mp fun above => before upperBlock above exists_upper
  · rw [if_neg exists_upper]
    exact ⟨by simp, fun b le there => exists_upper (later b upperBlock le (Nat.le_refl _) there)⟩

theorem minted_at_five : (firstExistingBlock 9 (5 ≤ ·)).1 = some 5 ∧
    ∀ probe ∈ (firstExistingBlock 9 (5 ≤ ·)).2, probe ≤ 9 := by
  have found := first_existing_block 9 (5 ≤ ·) fun b c le _ there => by simp only [decide_eq_true_eq] at there ⊢; omega
  refine ⟨?_, found.1⟩
  simp [firstExistingBlock, search]

end LpTerminal.Strategy
