import LpTerminal.Monitor.Guards

/-!
The lower-break cap against the release time it shows: the streak still fills the cap at that time, and
falls below it right after.
-/

namespace LpTerminal.Monitor

variable {cycles : List CompletedCycleRef} {now later windowSeconds threshold resetAt : ℚ}

def NewestFirst (cycles : List CompletedCycleRef) : Prop :=
  cycles.Pairwise fun newer older => older.completedAt ≤ newer.completedAt

def CapBlocks (cycles : List CompletedCycleRef) (now windowSeconds threshold : ℚ) : Prop :=
  threshold ≤ countConsecutiveLowerBreaks now windowSeconds cycles

/-- The release time is ahead, and the cap blocks up to it and no longer at it; without a block there is none. -/
structure CapConsistent (cycles : List CompletedCycleRef) (now windowSeconds threshold : ℚ) : Prop where
  releases : CapBlocks cycles now windowSeconds threshold →
    ∃ resetAt, consecutiveLowerBreakResetAt cycles now windowSeconds threshold = some resetAt ∧ now < resetAt ∧
      (∀ later, now ≤ later → later < resetAt → CapBlocks cycles later windowSeconds threshold) ∧
      ¬ CapBlocks cycles resetAt windowSeconds threshold
  unblocked : ¬ CapBlocks cycles now windowSeconds threshold →
    consecutiveLowerBreakResetAt cycles now windowSeconds threshold = none

/-- One of the first `threshold` cycles is missing, was no lower break or is older than the window. -/
def StreakBroken (cycles : List CompletedCycleRef) (now windowSeconds threshold : ℚ) : Prop :=
  ∃ n : ℕ, (n : ℚ) < threshold ∧
    ∀ cycle, cycles[n]? = some cycle → cycle.triggerSide ≠ some .lower ∨ cycle.completedAt < now - windowSeconds

theorem uncounted_breaks {cycle : CompletedCycleRef} (read : cycles[countConsecutiveLowerBreaks now windowSeconds cycles]? = some cycle) :
    cycle.triggerSide ≠ some .lower ∨ cycle.completedAt < now - windowSeconds := by
  induction cycles with
  | nil => cases read
  | cons newest older ih =>
    unfold countConsecutiveLowerBreaks at read
    split at read
    · rename_i other
      cases read
      exact Or.inl other
    · split at read
      · rename_i expired
        cases read
        exact Or.inr expired
      · rw [List.getElem?_cons_succ] at read
        exact ih read

theorem counted_le_length : countConsecutiveLowerBreaks now windowSeconds cycles ≤ cycles.length := by
  induction cycles with
  | nil => exact Nat.le_refl _
  | cons newest older ih =>
    unfold countConsecutiveLowerBreaks
    split
    · exact Nat.zero_le _
    · split
      · exact Nat.zero_le _
      · exact Nat.succ_le_succ ih

theorem counted_read {n : ℕ} (counted : n < countConsecutiveLowerBreaks now windowSeconds cycles) : ∃ cycle, cycles[n]? = some cycle :=
  ⟨_, List.getElem?_eq_getElem (counted.trans_le counted_le_length)⟩

theorem not_capBlocks_iff : ¬ CapBlocks cycles now windowSeconds threshold ↔ StreakBroken cycles now windowSeconds threshold := by
  unfold CapBlocks StreakBroken
  rw [not_le]
  constructor
  · intro below
    exact ⟨_, below, fun cycle read => uncounted_breaks read⟩
  · rintro ⟨n, small, breaks⟩
    refine lt_of_le_of_lt (Nat.cast_le.mpr ?_) small
    apply not_lt.mp
    intro counted
    obtain ⟨cycle, read⟩ := counted_read counted
    obtain ⟨lower, inWindow⟩ := counted_lower_break counted read
    rcases breaks _ read with other | expired
    · exact other lower
    · exact absurd inWindow (not_le.mpr expired)

theorem resetAt_eq (resets : consecutiveLowerBreakResetAt cycles now windowSeconds threshold = some resetAt) :
    CapBlocks cycles now windowSeconds threshold ∧
      ∃ (last : ℕ) (cycle : CompletedCycleRef), (last : ℚ) = threshold - 1 ∧ cycles[last]? = some cycle ∧
        resetAt = cycle.completedAt + windowSeconds := by
  refine ⟨(resetAt_not_past resets).1, ?_⟩
  unfold consecutiveLowerBreakResetAt at resets
  split at resets
  · cases resets
  · split at resets
    · cases resets
    · split at resets
      · cases resets
      · rename_i releasing found
        split at resets
        · cases resets
        · cases resets
          unfold element at found
          split at found
          · rename_i whole
            refine ⟨(threshold - 1).num.toNat, releasing, ?_, found, rfl⟩
            have index : (((threshold - 1).num.toNat : ℤ) : ℚ) = threshold - 1 := by
              rw [Int.toNat_of_nonneg (Rat.num_nonneg.mpr whole.2)]
              exact Rat.coe_int_num_of_den_eq_one whole.1
            exact_mod_cast index
          · cases found

theorem capBlocks_resetAt (newestFirst : NewestFirst cycles)
    (resets : consecutiveLowerBreakResetAt cycles now windowSeconds threshold = some resetAt) :
    CapBlocks cycles later windowSeconds threshold ↔ later ≤ resetAt := by
  obtain ⟨blocks, last, filling, isLast, found, rfl⟩ := resetAt_eq resets
  constructor
  · intro blocksLater
    apply not_lt.mp
    intro past
    refine not_capBlocks_iff.mpr ⟨last, by linarith, fun cycle read => Or.inr ?_⟩ blocksLater
    rw [found] at read
    cases read
    linarith
  · intro before
    apply Classical.byContradiction
    intro open_
    obtain ⟨n, small, breaks⟩ := not_capBlocks_iff.mp open_
    -- the cycle was counted, and is no older than the one that fills the cap
    have counted : n < countConsecutiveLowerBreaks now windowSeconds cycles := Nat.cast_lt.mp (small.trans_le blocks)
    obtain ⟨cycle, read⟩ := counted_read counted
    have upTo : n ≤ last := by
      have below : (n : ℚ) < (last + 1 : ℕ) := by
        push_cast
        linarith
      exact Nat.lt_succ_iff.mp (Nat.cast_lt.mp below)
    have newer : filling.completedAt ≤ cycle.completedAt := by
      rcases upTo.lt_or_eq with ahead | same
      · obtain ⟨inside, here⟩ := List.getElem?_eq_some_iff.mp found
        obtain ⟨before, there⟩ := List.getElem?_eq_some_iff.mp read
        rw [← here, ← there]
        exact List.pairwise_iff_getElem.mp newestFirst n last before inside ahead
      · subst same
        rw [read] at found
        cases found
        exact le_refl _
    rcases breaks _ read with other | expired
    · exact other (counted_lower_break counted read).1
    · linarith

/-- The release time is consistent with the cap exactly where the cap does not block: it shows a time at which the cap still
blocks, and is over right after. -/
theorem capConsistent_iff (newestFirst : NewestFirst cycles) :
    (CapConsistent cycles now windowSeconds threshold ↔ StreakBroken cycles now windowSeconds threshold) ∧
      ∀ resetAt, consecutiveLowerBreakResetAt cycles now windowSeconds threshold = some resetAt →
        now ≤ resetAt ∧ ∀ later, CapBlocks cycles later windowSeconds threshold ↔ later ≤ resetAt := by
  refine ⟨⟨fun consistent => ?_, fun broken => ?_⟩, fun resetAt resets => ⟨(resetAt_not_past resets).2, fun later => capBlocks_resetAt newestFirst resets⟩⟩
  · apply not_capBlocks_iff.mp
    intro blocks
    obtain ⟨resetAt, resets, _, _, released⟩ := consistent.releases blocks
    exact released ((capBlocks_resetAt newestFirst resets).mpr (le_refl _))
  · have open_ := not_capBlocks_iff.mpr broken
    refine ⟨fun blocks => absurd blocks open_, fun _ => ?_⟩
    cases resets : consecutiveLowerBreakResetAt cycles now windowSeconds threshold with
    | none => rfl
    | some resetAt => exact absurd (resetAt_not_past resets).1 open_

/-- Two lower breaks against a cap of three: no release time. -/
theorem capConsistent_iff_below : CapConsistent [⟨some .lower, 100⟩, ⟨some .lower, 40⟩] 120 86400 3 := by
  refine (capConsistent_iff ?_).1.mpr ⟨2, by norm_num, fun cycle read => absurd read (by simp)⟩
  exact List.pairwise_pair.mpr (by norm_num)

/-- The cap of one is shown to release at 100, when it still blocks. -/
theorem released_while_blocking :
    consecutiveLowerBreakResetAt [⟨some .lower, 40⟩] 70 60 1 = some 100 ∧ CapBlocks [⟨some .lower, 40⟩] 100 60 1 ∧
      ¬ CapConsistent [⟨some .lower, 40⟩] 70 60 1 := by
  have resets : consecutiveLowerBreakResetAt [⟨some .lower, 40⟩] 70 60 1 = some 100 := by decide +kernel
  have blocks : CapBlocks [⟨some .lower, 40⟩] 100 60 1 := by
    show (1 : ℚ) ≤ countConsecutiveLowerBreaks 100 60 [⟨some .lower, 40⟩]
    decide +kernel
  refine ⟨resets, blocks, fun consistent => ?_⟩
  have now : CapBlocks [⟨some .lower, 40⟩] 70 60 1 := by
    show (1 : ℚ) ≤ countConsecutiveLowerBreaks 70 60 [⟨some .lower, 40⟩]
    decide +kernel
  obtain ⟨resetAt, found, _, _, released⟩ := consistent.releases now
  rw [resets] at found
  cases found
  exact released blocks

end LpTerminal.Monitor
