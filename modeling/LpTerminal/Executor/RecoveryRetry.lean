import LpTerminal.Lib.Trace
import Mathlib.Tactic.Linarith
import Mathlib.Tactic.Positivity

/-!
The retry columns of a recovery job: `scheduleRecoveryRetry` after a failed attempt, and the writes
that move the counters it reads; the slippage ladder of a reverting swap. Basis points are JavaScript numbers,
so a configured guard need not be a whole number.
-/

namespace LpTerminal.SwapEscalation

def swapRecoveryMaxSlippageBps : ℚ := 1000

def escalatedSlippageBps (baseBps : ℚ) (revertCount : Nat) : ℚ :=
  let widened := baseBps * 2 ^ min (max revertCount 0) 8
  min (max baseBps swapRecoveryMaxSlippageBps) widened

def atSlippageCap (baseBps : ℚ) (revertCount : Nat) : Bool :=
  swapRecoveryMaxSlippageBps ≤ escalatedSlippageBps baseBps revertCount

theorem escalatedSlippageBps_bounded {baseBps : ℚ} {revertCount : Nat} :
    escalatedSlippageBps baseBps revertCount ≤ max baseBps swapRecoveryMaxSlippageBps :=
  min_le_left _ _

theorem escalatedSlippageBps_mono {baseBps : ℚ} {fewer more : Nat} (positive : 0 ≤ baseBps) (le : fewer ≤ more) :
    escalatedSlippageBps baseBps fewer ≤ escalatedSlippageBps baseBps more := by
  refine min_le_min_left _ (mul_le_mul_of_nonneg_left ?_ positive)
  exact pow_le_pow_right₀ (by norm_num) (min_le_min_right 8 (max_le_max_right 0 le))

end LpTerminal.SwapEscalation

namespace LpTerminal.RecoveryRetry

open SwapEscalation Trace

/-- The characters that end a URL in `CREDENTIALED_URL`: white space, both quotes, the backslash. -/
def urlStop (c : Char) : Bool :=
  c.toNat ∈ [9, 10, 11, 12, 13, 32, 34, 39, 92, 160, 5760, 8232, 8233, 8239, 8287, 12288, 65279] ||
    (8192 ≤ c.toNat && c.toNat ≤ 8202)

def schemeLength (text : List Char) : Option Nat :=
  if "https://".toList.isPrefixOf text then some 8
  else if "http://".toList.isPrefixOf text then some 7
  else none

/-- The replacement of one matched URL, given as its scheme and the text after `://`. -/
def redactUrl (scheme rest : List Char) : List Char :=
  if rest.contains '/' then scheme ++ rest.takeWhile (· != '/') ++ "/[redacted]".toList else scheme ++ rest

def redactFrom : Nat → List Char → List Char
  | 0, text => text
  | _ + 1, [] => []
  | fuel + 1, c :: text =>
    match schemeLength (c :: text) with
    | none => c :: redactFrom fuel text
    | some length =>
      let rest := ((c :: text).drop length).takeWhile (fun next => !urlStop next)
      if rest.isEmpty then c :: redactFrom fuel text
      else redactUrl ((c :: text).take length) rest ++ redactFrom fuel ((c :: text).drop (length + rest.length))

def redactUrls (text : String) : String :=
  String.ofList (redactFrom text.toList.length text.toList)

structure RecoveryRetryPrev where
  attempts : Nat
  errorStreak : Nat
  failStreak : Nat
  lastError : Option String

structure RecoveryRetryNext where
  attempts : Nat
  streak : Nat
  failStreak : Nat
  delaySeconds : Nat
  quarantined : Bool

def nextRecoveryRetryState (prev : RecoveryRetryPrev) (code : String) (quarantineEligible deferQuarantine : Bool) :
    RecoveryRetryNext :=
  let attempts := prev.attempts + 1
  let streak := if prev.lastError = some code then prev.errorStreak + 1 else 1
  let failStreak := if quarantineEligible then prev.failStreak + 1 else prev.failStreak
  let baseDelay := min 300 (5 * 2 ^ min (attempts - 1) 6)
  let delaySeconds :=
    if deferQuarantine then max baseDelay (min 300 (30 * 2 ^ min (attempts - 1) 4)) else baseDelay
  let quarantined := if deferQuarantine then false else (quarantineEligible && 3 ≤ streak) || 3 ≤ failStreak
  { attempts, streak, failStreak, delaySeconds, quarantined }

variable {code : String} {prev : RecoveryRetryPrev}

theorem nextRecoveryRetryState_deferred {eligible : Bool} :
    (nextRecoveryRetryState prev code eligible true).quarantined = false := rfl

theorem nextRecoveryRetryState_noise :
    (nextRecoveryRetryState prev code false false).quarantined = true ↔ 3 ≤ prev.failStreak := by
  simp [nextRecoveryRetryState]

theorem nextRecoveryRetryState_eligible :
    (nextRecoveryRetryState prev code true false).quarantined = true ↔
      (prev.lastError = some code ∧ 2 ≤ prev.errorStreak) ∨ 2 ≤ prev.failStreak := by
  by_cases same : prev.lastError = some code <;> simp [nextRecoveryRetryState, same]

inductive JobState
  | planned | running | recovery | completed | failed
  deriving DecidableEq, Repr

inductive StrategyState
  | monitoring | planned | executing | recovery | recoveryQuarantined | archived

/-- The job's row, its strategy's state and guard, and its `swap_revert_streak` context. The guard is
`none` where the stored configuration has no usable number. -/
structure RecoveryJob where
  state : JobState
  strategyState : StrategyState
  maxSlippageBps : Option ℚ
  recoveryAttempts : Nat
  recoveryErrorStreak : Nat
  recoveryFailStreak : Nat
  recoveryLastError : Option String
  recoveryNextAt : Option Nat
  recoveryQuarantinedAt : Option Nat
  swapRevertStreaks : List (Nat × Nat)

def RecoveryJob.initial (maxSlippageBps : Option ℚ) : RecoveryJob where
  state := .recovery
  strategyState := .recovery
  maxSlippageBps := maxSlippageBps
  recoveryAttempts := 0
  recoveryErrorStreak := 0
  recoveryFailStreak := 0
  recoveryLastError := none
  recoveryNextAt := none
  recoveryQuarantinedAt := none
  swapRevertStreaks := []

def strategySwapSlippageBaseBps (job : RecoveryJob) : ℚ :=
  match job.maxSlippageBps with
  | none => 100
  | some base => if 0 < base then base else 100

def swapEscalationUncapped (job : RecoveryJob) : Bool :=
  match (job.swapRevertStreaks.map Prod.snd).filter (0 < ·) with
  | [] => false
  | count :: counts => !atSlippageCap (strategySwapSlippageBaseBps job) (counts.foldl max count)

def noteSwapRevert (job : RecoveryJob) (txIndex : Nat) : RecoveryJob :=
  let count := (job.swapRevertStreaks.lookup txIndex).getD 0 + 1
  { job with swapRevertStreaks := (txIndex, count) :: job.swapRevertStreaks.filter (·.1 != txIndex) }

def clearSwapRevert (job : RecoveryJob) (txIndex : Nat) : RecoveryJob :=
  { job with swapRevertStreaks := job.swapRevertStreaks.filter (·.1 != txIndex) }

def resetSchedule (job : RecoveryJob) : RecoveryJob :=
  { job with
    recoveryAttempts := 0, recoveryErrorStreak := 0, recoveryFailStreak := 0
    recoveryLastError := none, recoveryNextAt := none, recoveryQuarantinedAt := none }

def clearRecoverySchedule (job : RecoveryJob) : RecoveryJob := resetSchedule job

def reactivateRecoveryJob (job : RecoveryJob) : Except String RecoveryJob :=
  if job.state = .recovery then .ok { resetSchedule job with strategyState := .recovery }
  else .error "E_RECOVERY_JOB"

def deferQuarantine (job : RecoveryJob) (code : String) (quarantineEligible : Bool) : Bool :=
  quarantineEligible && code == "E_TX_REVERTED" && swapEscalationUncapped job

structure RetryReport where
  attempts : Nat
  streak : Nat
  failStreak : Nat
  delayMs : Nat
  quarantined : Bool
  escalating : Bool

def retryPrev (job : RecoveryJob) : RecoveryRetryPrev where
  attempts := job.recoveryAttempts
  errorStreak := job.recoveryErrorStreak
  failStreak := job.recoveryFailStreak
  lastError := job.recoveryLastError

def scheduleRecoveryRetry (now : Nat) (job : RecoveryJob) (code : String) (quarantineEligible : Bool) :
    Except String (RetryReport × RecoveryJob) :=
  if job.state ≠ .recovery then .error "E_RECOVERY_JOB"
  else
    let deferred := deferQuarantine job code quarantineEligible
    let next := nextRecoveryRetryState (retryPrev job) code quarantineEligible deferred
    let stored := { job with
      recoveryAttempts := next.attempts
      recoveryErrorStreak := next.streak
      recoveryFailStreak := next.failStreak
      recoveryLastError := some (redactUrls code)
      recoveryNextAt := some (now + next.delaySeconds)
      recoveryQuarantinedAt := if next.quarantined then some now else none
      strategyState := if next.quarantined then .recoveryQuarantined else job.strategyState }
    .ok ({ attempts := next.attempts, streak := next.streak, failStreak := next.failStreak
           delayMs := next.delaySeconds * 1000, quarantined := next.quarantined, escalating := deferred }, stored)

/-- What happens to the retry columns of a job: a failed attempt, the bookkeeping of its swaps, and
the two resets. -/
inductive RecoveryEvent
  | failure (now : Nat) (code : String) (quarantineEligible : Bool)
  | swapReverted (txIndex : Nat)
  | swapSucceeded (txIndex : Nat)
  | attemptSucceeded
  | operatorResume

def step (job : RecoveryJob) : RecoveryEvent → RecoveryJob
  | .failure now code quarantineEligible =>
    match scheduleRecoveryRetry now job code quarantineEligible with
    | .ok (_, stored) => stored
    | .error _ => job
  | .swapReverted txIndex => noteSwapRevert job txIndex
  | .swapSucceeded txIndex => clearSwapRevert job txIndex
  | .attemptSucceeded => clearRecoverySchedule job
  | .operatorResume =>
    match reactivateRecoveryJob job with
    | .ok stored => stored
    | .error _ => job

def quarantines (job : RecoveryJob) (now : Nat) (code : String) (quarantineEligible : Bool) : Bool :=
  match scheduleRecoveryRetry now job code quarantineEligible with
  | .ok (_, stored) => stored.recoveryQuarantinedAt.isSome
  | .error _ => false

def QuarantineLaw (job : RecoveryJob) : RecoveryEvent → Prop
  | .failure now code eligible =>
    quarantines job now code eligible = true → eligible = true ∧ deferQuarantine job code eligible = false
  | _ => True

def StrikesBelowLimit (job : RecoveryJob) : RecoveryEvent → Prop
  | .failure _ _ eligible => job.state = .recovery → eligible = true ∨ job.recoveryFailStreak < 3
  | _ => True

def HeadroomLaw (job : RecoveryJob) : RecoveryEvent → Prop
  | .failure now code eligible => swapEscalationUncapped job = true → quarantines job now code eligible = false
  | _ => True

def HeadroomStrikesBelowLimit (job : RecoveryJob) : RecoveryEvent → Prop
  | .failure _ code eligible =>
    job.state = .recovery → swapEscalationUncapped job = true →
      if eligible then
        code = "E_TX_REVERTED" ∨
          ((job.recoveryLastError = some code → job.recoveryErrorStreak < 2) ∧ job.recoveryFailStreak < 2)
      else job.recoveryFailStreak < 3
  | _ => True

instance (job : RecoveryJob) : ∀ event, Decidable (QuarantineLaw job event)
  | .failure .. => inferInstanceAs (Decidable (_ → _ ∧ _))
  | .swapReverted _ | .swapSucceeded _ | .attemptSucceeded | .operatorResume => .isTrue trivial

instance (job : RecoveryJob) : ∀ event, Decidable (HeadroomLaw job event)
  | .failure .. => inferInstanceAs (Decidable (_ → _ = _))
  | .swapReverted _ | .swapSucceeded _ | .attemptSucceeded | .operatorResume => .isTrue trivial

variable {job : RecoveryJob}

theorem quarantines_iff {now : Nat} {eligible : Bool} :
    quarantines job now code eligible = true ↔ job.state = .recovery ∧
      (nextRecoveryRetryState (retryPrev job) code eligible (deferQuarantine job code eligible)).quarantined = true := by
  unfold quarantines scheduleRecoveryRetry
  by_cases recovery : job.state = .recovery
  · simp only [recovery, ne_eq, not_true_eq_false, if_false, true_and]
    split <;> simp_all
  · simp [recovery]

theorem deferQuarantine_noise : deferQuarantine job code false = false := rfl

theorem deferQuarantine_eligible :
    deferQuarantine job code true = true ↔ code = "E_TX_REVERTED" ∧ swapEscalationUncapped job = true := by
  simp [deferQuarantine]

theorem quarantineLaw_iff (job : RecoveryJob) (event : RecoveryEvent) :
    QuarantineLaw job event ↔ StrikesBelowLimit job event := by
  cases event with
  | failure now code eligible =>
    simp only [QuarantineLaw, StrikesBelowLimit, quarantines_iff]
    cases eligible with
    | false =>
      rw [deferQuarantine_noise, nextRecoveryRetryState_noise]
      simp [retryPrev]
    | true =>
      cases deferred : deferQuarantine job code true with
      | false => simp
      | true => simp [nextRecoveryRetryState_deferred]
  | _ => exact Iff.rfl

theorem headroomLaw_iff (job : RecoveryJob) (event : RecoveryEvent) :
    HeadroomLaw job event ↔ HeadroomStrikesBelowLimit job event := by
  cases event with
  | failure now code eligible =>
    simp only [HeadroomLaw, HeadroomStrikesBelowLimit, ← Bool.not_eq_true, quarantines_iff, not_and]
    cases eligible with
    | false =>
      rw [deferQuarantine_noise, nextRecoveryRetryState_noise]
      simp only [retryPrev, Bool.false_eq_true, if_false, not_le]
      exact ⟨fun law recovery headroom => law headroom recovery, fun law headroom recovery => law recovery headroom⟩
    | true =>
      by_cases reverted : code = "E_TX_REVERTED"
      · have safe (headroom : swapEscalationUncapped job = true) :
            (nextRecoveryRetryState (retryPrev job) code true (deferQuarantine job code true)).quarantined ≠ true := by
          rw [deferQuarantine_eligible.mpr ⟨reverted, headroom⟩, nextRecoveryRetryState_deferred]
          exact Bool.false_ne_true
        exact ⟨fun _ _ _ => by simp [reverted], fun _ headroom _ => safe headroom⟩
      · have counted : deferQuarantine job code true = false := by
          simp [← Bool.not_eq_true, deferQuarantine_eligible, reverted]
        rw [counted, nextRecoveryRetryState_eligible]
        simp only [retryPrev, if_true, reverted, false_or, not_or, not_and, not_le]
        exact ⟨fun law recovery headroom => law headroom recovery, fun law headroom recovery => law recovery headroom⟩
  | _ => exact Iff.rfl

/-- Along every history of a job the quarantine law holds exactly when every failure meets the strike
condition, and quarantine waits for the headroom exactly under the sharper one. -/
theorem quarantine_run (job : RecoveryJob) (events : List RecoveryEvent) :
    (Along step QuarantineLaw job events ↔ Along step StrikesBelowLimit job events) ∧
      (Along step HeadroomLaw job events ↔ Along step HeadroomStrikesBelowLimit job events) :=
  ⟨along_congr quarantineLaw_iff, along_congr headroomLaw_iff⟩

/-- Three deferred reverts on a 100 bps guard, then a failed quote request. -/
theorem quarantine_by_noise :
    let reverted := [.swapReverted 0, .failure 0 "E_TX_REVERTED" true]
    let history := reverted ++ reverted ++ reverted ++ [.failure 0 "E_KYBER_QUOTE" false]
    ¬ Along step QuarantineLaw (.initial (some 100)) history ∧
      ¬ Along step HeadroomLaw (.initial (some 100)) history := by
  decide +kernel

end LpTerminal.RecoveryRetry
