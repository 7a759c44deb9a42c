import Mathlib.Data.Rat.Floor

/-!
The rules behind the monitor's guards: market quality, bursts of cycles, the two cycle caps, the
economics of a cycle and the boundary trigger. Times are epoch seconds.
-/

namespace LpTerminal.Monitor

abbrev Bounded (lo hi : ℚ) := {value : ℚ // lo ≤ value ∧ value ≤ hi}

structure Safeguards where
  enabled : Bool
  minCrossingMinutes : Option (Bounded 0 10080)
  minNetAprPct : Option (Bounded 0 1000000)
  minCycleFeeCoverage : Option (Bounded 0 100)
  economicsHoldMinutes : Option (Bounded 1 1440)
  maxRebalancesPerDay : Option (Bounded 1 1000)
  maxConsecutiveLowerBreaks : Option (Bounded 1 1000)
  lowerBreakWindowMinutes : Option (Bounded 1 10080)
  volatilityWindowSeconds : Option (Bounded 10 3600)
  maxVolatilityBps : Option (Bounded 1 10000)
  maxSpotTwapDeviationBps : Option (Bounded 1 10000)
  stableMarketSeconds : Option (Bounded 0 3600)
  burstWindowMinutes : Option (Bounded 1 1440)
  burstTriggerCount : Option (Bounded 2 1000)
  burstCooldownMinutes : Option (Bounded 1 1440)

variable {lo hi : ℚ}

def number (setting : Option (Bounded lo hi)) : Option ℚ :=
  setting.map Subtype.val

/-- `safeguards.enabled ? setting : undefined`. -/
def Safeguards.active (safeguards : Safeguards) (setting : Option (Bounded lo hi)) : Option ℚ :=
  if safeguards.enabled then number setting else none

def truthy (value : Option ℚ) : Option ℚ :=
  value.filter (· ≠ 0)

variable {setting : Option (Bounded lo hi)}

theorem number_bounds {value : ℚ} (read : number setting = some value) : lo ≤ value ∧ value ≤ hi := by
  obtain ⟨bounded, _, rfl⟩ := Option.map_eq_some_iff.mp read
  exact bounded.property

variable {safeguards : Safeguards}

theorem active_number {value : ℚ}
    (read : safeguards.active setting = some value) : safeguards.enabled = true ∧ number setting = some value := by
  unfold Safeguards.active at read
  split at read
  · rename_i enabled
    exact ⟨enabled, read⟩
  · cases read

theorem active_bounds {value : ℚ}
    (read : safeguards.active setting = some value) : lo ≤ value ∧ value ≤ hi :=
  number_bounds (active_number read).2

theorem truthy_eq {value : Option ℚ} {seconds : ℚ} : truthy value = some seconds ↔ value = some seconds ∧ seconds ≠ 0 := by
  unfold truthy
  simp [Option.filter_eq_some_iff]

theorem truthy_active (positive : 0 < lo) :
    truthy (safeguards.active setting) = safeguards.active setting := by
  cases read : safeguards.active setting with
  | none => rfl
  | some value => exact truthy_eq.mpr ⟨rfl, (positive.trans_le (active_bounds read).1).ne'⟩

def tickDistanceBps (a b : ℤ) : ℤ :=
  ⌈((10001 / 10000 : ℚ) ^ (a - b).natAbs - 1) * 10000⌉

inductive GuardReason
  | marketVolatility | spotTwapDeviation
  deriving DecidableEq, Repr

structure MarketQuality where
  healthy : Bool
  reason : Option GuardReason
  volatilityBps : ℤ
  spotTwapDeviationBps : ℤ

def exceeds (measured : ℤ) (limit : Option ℚ) : Bool :=
  limit.any fun most => most < (measured : ℚ)

def evaluateMarketQuality (spotTick averageTick minTick maxTick : ℤ) (maxVolatilityBps maxSpotTwapDeviationBps : Option ℚ) :
    MarketQuality :=
  let volatilityBps := tickDistanceBps minTick maxTick
  let spotTwapDeviationBps := tickDistanceBps spotTick averageTick
  if exceeds volatilityBps maxVolatilityBps then ⟨false, some .marketVolatility, volatilityBps, spotTwapDeviationBps⟩
  else if exceeds spotTwapDeviationBps maxSpotTwapDeviationBps then ⟨false, some .spotTwapDeviation, volatilityBps, spotTwapDeviationBps⟩
  else ⟨true, none, volatilityBps, spotTwapDeviationBps⟩

def shouldStartBurstWait (recentCompleted : ℕ) (triggerCount : ℚ) : Bool :=
  triggerCount.den = 1 && 2 ≤ triggerCount && triggerCount - 1 ≤ recentCompleted

inductive TriggerSide
  | lower | upper | manual | adaptiveContraction
  deriving DecidableEq, Repr

structure CompletedCycleRef where
  triggerSide : Option TriggerSide
  completedAt : ℚ

def defaultLowerBreakWindowMinutes : ℚ := 1440

def lowerBreakWindowSeconds (safeguards : Safeguards) : ℚ :=
  max 60 ⌊(number safeguards.lowerBreakWindowMinutes).getD defaultLowerBreakWindowMinutes * 60⌋

def countConsecutiveLowerBreaks (now windowSeconds : ℚ) : List CompletedCycleRef → ℕ
  | [] => 0
  | cycle :: older =>
    if cycle.triggerSide ≠ some .lower then 0
    else if cycle.completedAt < now - windowSeconds then 0
    else countConsecutiveLowerBreaks now windowSeconds older + 1

/-- `list[index]`, which is undefined off the integers. -/
def element {α : Type} (list : List α) (index : ℚ) : Option α :=
  if index.den = 1 ∧ 0 ≤ index then list[index.num.toNat]? else none

def consecutiveLowerBreakResetAt (cycles : List CompletedCycleRef) (now windowSeconds threshold : ℚ) : Option ℚ :=
  if threshold ≤ 0 then none
  else if countConsecutiveLowerBreaks now windowSeconds cycles < threshold then none
  else match element cycles (threshold - 1) with
    | none => none
    | some releasing =>
      if releasing.triggerSide ≠ some .lower then none else some (releasing.completedAt + windowSeconds)

def nextUtcDayStart (now : ℚ) : ℚ :=
  ⌊now / 86400⌋ * 86400 + 86400

theorem now_lt_nextUtcDayStart (now : ℚ) : now < nextUtcDayStart now := by
  unfold nextUtcDayStart
  have below := Int.lt_floor_add_one (now / 86400)
  have scaled : now / 86400 * 86400 = now := div_mul_cancel₀ now (by norm_num)
  linarith

theorem counted_lower_break {now windowSeconds : ℚ} {cycles : List CompletedCycleRef} {n : ℕ} {cycle : CompletedCycleRef}
    (counted : n < countConsecutiveLowerBreaks now windowSeconds cycles) (read : cycles[n]? = some cycle) :
    cycle.triggerSide = some .lower ∧ now - windowSeconds ≤ cycle.completedAt := by
  induction cycles generalizing n with
  | nil => cases read
  | cons newest older ih =>
    unfold countConsecutiveLowerBreaks at counted
    split at counted
    · exact absurd counted (Nat.not_lt_zero n)
    · rename_i lower
      split at counted
      · exact absurd counted (Nat.not_lt_zero n)
      · rename_i inWindow
        cases n with
        | zero =>
          cases read
          exact ⟨not_not.mp lower, not_lt.mp inWindow⟩
        | succ n => exact ih (Nat.lt_of_succ_lt_succ counted) read

theorem resetAt_not_past {cycles : List CompletedCycleRef} {now windowSeconds threshold resetAt : ℚ}
    (resets : consecutiveLowerBreakResetAt cycles now windowSeconds threshold = some resetAt) :
    threshold ≤ countConsecutiveLowerBreaks now windowSeconds cycles ∧ now ≤ resetAt := by
  unfold consecutiveLowerBreakResetAt at resets
  split at resets
  · cases resets
  · split at resets
    · cases resets
    · rename_i saturated
      have enough := not_lt.mp saturated
      split at resets
      · cases resets
      · rename_i releasing found
        split at resets
        · cases resets
        · cases resets
          unfold element at found
          split at found
          · rename_i whole
            have index : (((threshold - 1).num.toNat : ℤ) : ℚ) = threshold - 1 := by
              rw [Int.toNat_of_nonneg (Rat.num_nonneg.mpr whole.2)]
              exact Rat.coe_int_num_of_den_eq_one whole.1
            have counted : (threshold - 1).num.toNat < countConsecutiveLowerBreaks now windowSeconds cycles := by
              have below : (((threshold - 1).num.toNat : ℤ) : ℚ) < countConsecutiveLowerBreaks now windowSeconds cycles := by
                rw [index]
                linarith
              exact_mod_cast below
            have inWindow := (counted_lower_break counted found).2
            exact ⟨enough, by linarith⟩
          · cases found

inductive CycleEconomicsDecision
  | execute
  | wait (waitUntil : ℚ) (feesQuoteRaw costQuoteRaw : ℤ)

def decideCycleEconomics (now : ℚ) (outSince : Option ℚ) (collectableFeesQuoteRaw : ℤ) (lastCycleCostQuoteRaw : Option ℤ)
    (minCycleFeeCoverage : Option ℚ) (economicsHoldSeconds : ℚ) : CycleEconomicsDecision :=
  match truthy minCycleFeeCoverage, lastCycleCostQuoteRaw with
  | some coverage, some cost =>
    if coverage ≤ 0 ∨ cost ≤ 0 ∨ collectableFeesQuoteRaw < 0 then .execute
    else if (cost * ⌈coverage * 1000000⌉).tdiv 1000000 ≤ collectableFeesQuoteRaw then .execute
    else
      let waitUntil := outSince.getD now + max 0 ⌊economicsHoldSeconds⌋
      if waitUntil ≤ now then .execute else .wait waitUntil collectableFeesQuoteRaw cost
  | _, _ => .execute

inductive Side
  | lower | upper
  deriving DecidableEq, Repr

/-- The side the tick is out on; `none` in range. -/
def rangeSide (tick tickLower tickUpper : ℤ) : Option Side :=
  if tick < tickLower then some .lower
  else if tickUpper ≤ tick then some .upper
  else none

inductive BoundaryAction
  | recenter | skewRecenter | holdQuote | pause
  deriving DecidableEq, Repr

inductive BoundaryCondition
  | always | feeBreakEven | manualConfirm
  deriving DecidableEq, Repr

structure BoundaryPolicy where
  condition : BoundaryCondition
  action : BoundaryAction

inductive NoTrigger
  | inRange | confirming | cooldown | guardNotMet

inductive PauseReason
  | manualConfirm | aprUnavailable | boundary (side : Side)
  deriving DecidableEq, Repr

inductive TriggerDecision
  | none (reason : NoTrigger)
  | pause (reason : PauseReason)
  | execute (side : Side) (action : BoundaryAction) (observedAt : ℚ)

structure BoundaryInput where
  tick : ℤ
  tickLower : ℤ
  tickUpper : ℤ
  lower : BoundaryPolicy
  upper : BoundaryPolicy
  now : ℚ
  outOfRangeSince : Option ℚ
  confirmationSeconds : ℚ
  cooldownUntil : Option ℚ
  netAprPct : Option ℚ
  minNetAprPct : Option ℚ

def decideBoundaryTrigger (input : BoundaryInput) : TriggerDecision :=
  match rangeSide input.tick input.tickLower input.tickUpper with
  | none => .none .inRange
  | some side =>
    if (truthy input.cooldownUntil).any fun cooldownUntil => input.now < cooldownUntil then .none .cooldown
    else
      let policy := match side with
        | .lower => input.lower
        | .upper => input.upper
      if policy.condition = .manualConfirm then .pause .manualConfirm
      else if 0 < input.confirmationSeconds ∧
          (truthy input.outOfRangeSince).any (fun since => input.now - since < input.confirmationSeconds) then .none .confirming
      else if policy.condition = .feeBreakEven ∧ input.netAprPct = none then .pause .aprUnavailable
      else if policy.condition = .feeBreakEven ∧
          input.minNetAprPct.any (fun least => input.netAprPct.any (· < least)) then .none .guardNotMet
      else if policy.action = .pause then .pause (.boundary side)
      else .execute side policy.action input.now

end LpTerminal.Monitor
