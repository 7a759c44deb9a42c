import LpTerminal.Executor.RecoveryRetry

/-!
The end of the slippage ladder: where it reaches its cap, and where a swap that keeps reverting is deferred for good.
-/

namespace LpTerminal.RecoveryRetry

open SwapEscalation Trace

/-- A `maxSlippageBps` that the schema accepts. -/
abbrev SlippageBase := {base : ℚ // 0 ≤ base ∧ base ≤ 1000}

variable {base : ℚ} {count : Nat} {job : RecoveryJob} {txIndex now : Nat} {times : List Nat}

theorem escalatedSlippageBps_eight (bounded : base ≤ 1000) (eight : 8 ≤ count) :
    escalatedSlippageBps base count = min 1000 (base * 256) := by
  unfold escalatedSlippageBps swapRecoveryMaxSlippageBps
  dsimp only
  rw [max_eq_right bounded, max_eq_left (Nat.zero_le count), min_eq_right eight]
  norm_num

theorem atSlippageCap_eight (bounded : base ≤ 1000) (reaches : 125 / 32 ≤ base) (eight : 8 ≤ count) :
    atSlippageCap base count = true := by
  unfold atSlippageCap
  rw [escalatedSlippageBps_eight bounded eight, decide_eq_true_eq]
  unfold swapRecoveryMaxSlippageBps
  exact le_min le_rfl (by linarith)

theorem atSlippageCap_never (positive : 0 ≤ base) (short : base < 125 / 32) (count : Nat) : atSlippageCap base count = false := by
  have top := @escalatedSlippageBps_mono base count (max count 8) positive (le_max_left _ _)
  rw [escalatedSlippageBps_eight (by linarith) (le_max_right _ _)] at top
  have below := top.trans (min_le_right _ _)
  unfold atSlippageCap swapRecoveryMaxSlippageBps
  rw [decide_eq_false_iff_not]
  intro capped
  linarith

def reverts (txIndex : Nat) (times : List Nat) : List RecoveryEvent :=
  times.flatMap fun now => [.swapReverted txIndex, .failure now "E_TX_REVERTED" true]

theorem run_reverts_cons (job : RecoveryJob) (txIndex now : Nat) (times : List Nat) :
    run step job (reverts txIndex (now :: times)) =
      run step (step (noteSwapRevert job txIndex) (.failure now "E_TX_REVERTED" true)) (reverts txIndex times) := rfl

theorem run_reverts_concat (job : RecoveryJob) (txIndex now : Nat) (times : List Nat) :
    run step job (reverts txIndex (times ++ [now])) =
      step (noteSwapRevert (run step job (reverts txIndex times)) txIndex) (.failure now "E_TX_REVERTED" true) := by
  unfold reverts
  rw [List.flatMap_append, run_append]
  rfl

def revertCount (job : RecoveryJob) (txIndex : Nat) : Nat := (job.swapRevertStreaks.lookup txIndex).getD 0

theorem step_failure (job : RecoveryJob) (now : Nat) (code : String) (eligible : Bool) (recovery : job.state = .recovery) :
    let next := nextRecoveryRetryState (retryPrev job) code eligible (deferQuarantine job code eligible)
    let stored := step job (.failure now code eligible)
    stored.state = .recovery ∧ stored.maxSlippageBps = job.maxSlippageBps ∧ stored.swapRevertStreaks = job.swapRevertStreaks ∧
      stored.recoveryFailStreak = next.failStreak ∧
      stored.recoveryQuarantinedAt = if next.quarantined then some now else none := by
  simp [step, scheduleRecoveryRetry, recovery]

theorem revertCount_note : revertCount (noteSwapRevert job txIndex) txIndex = revertCount job txIndex + 1 := by
  simp [revertCount, noteSwapRevert]

theorem uncapped_note (guarded : job.maxSlippageBps = some base) (positive : 0 < base) :
    ∃ largest, revertCount job txIndex + 1 ≤ largest ∧
      swapEscalationUncapped (noteSwapRevert job txIndex) = !atSlippageCap base largest := by
  have base_ : strategySwapSlippageBaseBps (noteSwapRevert job txIndex) = base := by
    simp [strategySwapSlippageBaseBps, noteSwapRevert, guarded, positive]
  refine ⟨(((job.swapRevertStreaks.filter (·.1 != txIndex)).map Prod.snd).filter (0 < ·)).foldl max (revertCount job txIndex + 1), ?_, ?_⟩
  · generalize ((job.swapRevertStreaks.filter (·.1 != txIndex)).map Prod.snd).filter (0 < ·) = others
    generalize revertCount job txIndex + 1 = own
    induction others generalizing own with
    | nil => exact le_rfl
    | cons other rest ih => exact (le_max_left own other).trans (ih _)
  · unfold swapEscalationUncapped
    rw [base_]
    simp [noteSwapRevert, revertCount]

theorem run_reverts_count (recovery : job.state = .recovery) (times : List Nat) :
    let last := run step job (reverts txIndex times)
    last.state = .recovery ∧ last.maxSlippageBps = job.maxSlippageBps ∧
      revertCount last txIndex = revertCount job txIndex + times.length ∧
      last.recoveryFailStreak = job.recoveryFailStreak + times.length := by
  induction times generalizing job with
  | nil => exact ⟨recovery, rfl, rfl, rfl⟩
  | cons now later ih =>
    obtain ⟨state, guard, streaks, strikes, -⟩ := step_failure (noteSwapRevert job txIndex) now "E_TX_REVERTED" true recovery
    obtain ⟨state', guard', counted, struck⟩ := ih state
    rw [run_reverts_cons]
    refine ⟨state', guard'.trans guard, ?_, ?_⟩
    · have noted := @revertCount_note job txIndex
      unfold revertCount at counted noted ⊢
      rw [counted, streaks, noted, List.length_cons]
      omega
    · rw [struck, strikes, List.length_cons]
      simp only [nextRecoveryRetryState, if_true, retryPrev, noteSwapRevert]
      omega

theorem run_reverts_quarantined (recovery : job.state = .recovery) (guarded : job.maxSlippageBps = some base)
    (bounded : base ≤ 1000) (reaches : 125 / 32 ≤ base) (eight : 8 ≤ times.length) :
    (run step job (reverts txIndex times)).recoveryQuarantinedAt.isSome = true := by
  obtain ⟨earlier, now, rfl⟩ := List.eq_nil_or_concat times |>.resolve_left (by rintro rfl; simp at eight)
  rw [List.concat_eq_append, List.length_append, List.length_singleton] at eight
  rw [List.concat_eq_append, run_reverts_concat]
  obtain ⟨state, guard, counted, struck⟩ := @run_reverts_count job txIndex recovery earlier
  obtain ⟨largest, more, uncapped⟩ := @uncapped_note base _ txIndex (guard.trans guarded) (by linarith)
  rw [atSlippageCap_eight bounded reaches (by omega)] at uncapped
  obtain ⟨-, -, -, -, quarantined⟩ :=
    step_failure (noteSwapRevert (run step job (reverts txIndex earlier)) txIndex) now "E_TX_REVERTED" true state
  have counts : deferQuarantine (noteSwapRevert (run step job (reverts txIndex earlier)) txIndex) "E_TX_REVERTED" true = false := by
    rw [← Bool.not_eq_true, deferQuarantine_eligible, uncapped]
    simp
  have strikes : 2 ≤ (run step job (reverts txIndex earlier)).recoveryFailStreak := by omega
  rw [quarantined, counts, if_pos (nextRecoveryRetryState_eligible.mpr (Or.inr strikes))]
  rfl

theorem run_reverts_deferred (recovery : job.state = .recovery) (guarded : job.maxSlippageBps = some base) (positive : 0 < base)
    (short : base < 125 / 32) (fresh : job.recoveryQuarantinedAt = none) :
    (run step job (reverts txIndex times)).recoveryQuarantinedAt = none := by
  induction times generalizing job with
  | nil => exact fresh
  | cons now later ih =>
    obtain ⟨largest, -, uncapped⟩ := @uncapped_note base job txIndex guarded positive
    rw [atSlippageCap_never positive.le short] at uncapped
    obtain ⟨state, guard, -, -, quarantined⟩ := step_failure (noteSwapRevert job txIndex) now "E_TX_REVERTED" true recovery
    have deferred : deferQuarantine (noteSwapRevert job txIndex) "E_TX_REVERTED" true = true :=
      deferQuarantine_eligible.mpr ⟨rfl, uncapped⟩
    rw [deferred, nextRecoveryRetryState_deferred] at quarantined
    rw [run_reverts_cons]
    exact ih state (guard.trans guarded) quarantined

/-- The cap says when the tolerance can widen no more, it is reached, and a swap that keeps reverting is quarantined
within a number of reverts that depends on the base alone. -/
structure LadderEnds (base : ℚ) : Prop where
  exact_ : ∀ count, atSlippageCap base count = true ↔ ∀ more, count < more → ¬ escalatedSlippageBps base count < escalatedSlippageBps base more
  reached : ∃ count, atSlippageCap base count = true
  quarantined : ∃ bound, ∀ (job : RecoveryJob) (txIndex : Nat) (times : List Nat), job.state = .recovery →
    job.maxSlippageBps = some base → bound ≤ times.length → (run step job (reverts txIndex times)).recoveryQuarantinedAt.isSome = true

theorem ladder_ends_iff (base : SlippageBase) : LadderEnds base.1 ↔ 125 / 32 ≤ base.1 := by
  obtain ⟨base, nonneg, bounded⟩ := base
  constructor
  · intro ends
    by_contra short
    obtain ⟨count, capped⟩ := ends.reached
    rw [atSlippageCap_never nonneg (not_le.mp short)] at capped
    cases capped
  · intro reaches
    refine ⟨fun count => ⟨fun capped more _ => not_lt.mpr ?_, fun widest => ?_⟩, ⟨8, atSlippageCap_eight bounded reaches le_rfl⟩,
      8, fun job txIndex times recovery guarded eight => run_reverts_quarantined recovery guarded bounded reaches eight⟩
    · have most := @escalatedSlippageBps_bounded base more
      rw [max_eq_right (show base ≤ swapRecoveryMaxSlippageBps from bounded)] at most
      unfold atSlippageCap at capped
      exact most.trans (of_decide_eq_true capped)
    · have top := atSlippageCap_eight bounded reaches (Nat.le_add_left 8 count)
      unfold atSlippageCap at top ⊢
      rw [decide_eq_true_eq] at top ⊢
      exact top.trans (not_lt.mp (widest (count + 8) (by omega)))

/-- A strategy that tolerates three basis points retries a reverting swap for ever. -/
theorem three_bps_never_quarantined : ¬ LadderEnds 3 := by
  intro ends
  obtain ⟨bound, quarantined⟩ := ends.quarantined
  have stuck := quarantined (.initial (some 3)) 0 (List.replicate bound 0) rfl rfl (by rw [List.length_replicate])
  have never := @run_reverts_deferred 3 (.initial (some 3)) 0 (List.replicate bound 0) rfl rfl (by norm_num) (by norm_num) rfl
  rw [never] at stuck
  cases stuck

end LpTerminal.RecoveryRetry
