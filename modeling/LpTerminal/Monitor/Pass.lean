import LpTerminal.Lib.Table
import LpTerminal.Monitor.Guards
import Mathlib.Data.List.Sort

/-!
The read-only report of the guards, what the store keeps of one strategy for the monitor, and one pass over it: the market
guard, the boundary trigger, the burst guard, the churn caps and the economics gate, in the order the pass consults them.
-/

namespace LpTerminal.Monitor

inductive StrategyStatus
  | monitoring | planned | executing | recovery | guardWait | pausedGuard | awaitingManual
  deriving DecidableEq, Repr

inductive GuardConditionId
  | sampleHistory | marketVolatility | spotTwapDeviation | guardRecoveryStability | burstThrottle | dailyRebalanceCap
  | consecutiveLowerBreaks | triggerCooldown | boundaryConfirmation | boundaryPause | aprAvailable | manualConfirm
  | monitorRecheck | cycleEconomics
  deriving DecidableEq, Repr

inductive GuardConditionStatus
  | pass | fail | wait

structure GuardCondition where
  id : GuardConditionId
  status : GuardConditionStatus
  measured : Option ℚ := none
  threshold : Option ℚ := none
  sampleCount : Option ℕ := none
  waitUntil : Option ℚ := none
  remainingSeconds : Option ℚ := none
  totalSeconds : Option ℚ := none
  side : Option Side := none
  eventAt : Option ℚ := none

/-- A condition of the report, and whether its id is added to `blocking`. -/
structure Finding where
  condition : GuardCondition
  blocks : Bool

structure GuardReport where
  waiting : Bool
  needsManualResume : Bool
  blocking : List GuardConditionId
  conditions : List GuardCondition
  checkedAt : ℚ

structure GuardMarketStats where
  count : ℕ
  firstTs : ℚ
  lastTs : ℚ
  tick : ℤ
  minTick : ℤ
  maxTick : ℤ

structure GuardPauseInfo where
  reason : PauseReason
  eventAt : ℚ

structure EconomicsInfo where
  waitUntil : ℚ
  feesQuote : Option ℚ
  costQuote : Option ℚ
  coverage : ℚ

structure GuardReportInput where
  state : StrategyStatus
  now : ℚ
  safeguards : Safeguards
  pollSeconds : ℚ
  confirmationSeconds : ℚ
  guardReason : Option GuardReason
  guardStableSince : Option ℚ
  burstWaitUntil : Option ℚ
  cooldownUntil : Option ℚ
  outSide : Option Side
  outSince : Option ℚ
  spotTick : Option ℤ
  marketStats : Option GuardMarketStats
  recentCompletedCycles : Option ℕ
  completedTodayCycles : Option ℕ
  lowerBreakCount : Option ℕ
  lowerBreakWaitUntil : Option ℚ
  pause : Option GuardPauseInfo
  economics : Option EconomicsInfo

def StrategyStatus.waiting (state : StrategyStatus) : Bool :=
  state = .guardWait || state = .pausedGuard || state = .awaitingManual

def StrategyStatus.manual (state : StrategyStatus) : Bool :=
  state = .pausedGuard || state = .awaitingManual

def readyDeadline (stats : Option GuardMarketStats) (windowSeconds pollSeconds : ℚ) : Option ℚ :=
  (truthy (stats.map GuardMarketStats.firstTs)).map fun firstTs => firstTs + windowSeconds - pollSeconds * 2

def historyReady (stats : Option GuardMarketStats) (now windowSeconds pollSeconds : ℚ) : Bool :=
  stats.any fun stats => 2 ≤ stats.count && stats.firstTs ≤ now - windowSeconds + pollSeconds * 2

def historyFindings (input : GuardReportInput) (windowSeconds : ℚ) (ready : Bool) : List Finding :=
  if ready then []
  else
    let deadline := readyDeadline input.marketStats windowSeconds input.pollSeconds
    [⟨{ id := .sampleHistory, status := .wait
        sampleCount := some ((input.marketStats.map GuardMarketStats.count).getD 0)
        threshold := some 2
        totalSeconds := some windowSeconds
        waitUntil := deadline
        remainingSeconds := some (max 0 (deadline.getD input.now - input.now)) }, true⟩]

/-- One market metric: `market_volatility` or `spot_twap_deviation`. -/
def metricFindings (id : GuardConditionId) (ready : Bool) (stats : Option GuardMarketStats) (distance : GuardMarketStats → ℤ) :
    Option ℚ → List Finding
  | none => []
  | some limit =>
    let measured := if ready then stats.map distance else none
    let failed := measured.any fun measured => limit < (measured : ℚ)
    [⟨{ id, status := if failed then .fail else if ready then .pass else .wait
        measured := measured.map fun (measured : ℤ) => (measured : ℚ)
        threshold := some limit
        sampleCount := stats.map GuardMarketStats.count }, failed⟩]

def metrics (input : GuardReportInput) (ready : Bool) : List Finding :=
  metricFindings .marketVolatility ready input.marketStats (fun stats => tickDistanceBps stats.minTick stats.maxTick)
      (number input.safeguards.maxVolatilityBps) ++
    metricFindings .spotTwapDeviation ready input.marketStats (fun stats => tickDistanceBps (input.spotTick.getD stats.tick) stats.tick)
      (number input.safeguards.maxSpotTwapDeviationBps)

def stabilityFindings (input : GuardReportInput) (healthy : Bool) : List Finding :=
  match input.guardReason with
  | none => []
  | some _ =>
    let stableSeconds := (number input.safeguards.stableMarketSeconds).getD 0
    let stableSince := input.guardStableSince.getD input.now
    let remaining := max 0 (stableSince + stableSeconds - input.now)
    if healthy = false then [⟨{ id := .guardRecoveryStability, status := .wait, totalSeconds := some stableSeconds }, false⟩]
    else if 0 < remaining then
      [⟨{ id := .guardRecoveryStability, status := .wait
          waitUntil := some (stableSince + stableSeconds)
          remainingSeconds := some remaining
          totalSeconds := some stableSeconds }, true⟩]
    else
      [⟨{ id := .guardRecoveryStability, status := .pass, totalSeconds := some stableSeconds, remainingSeconds := some 0 }, false⟩]

def marketFindings (input : GuardReportInput) : List Finding :=
  match truthy (input.safeguards.active input.safeguards.volatilityWindowSeconds) with
  | none => []
  | some windowSeconds =>
    if input.safeguards.maxVolatilityBps.isNone && input.safeguards.maxSpotTwapDeviationBps.isNone then []
    else
      let ready := historyReady input.marketStats input.now windowSeconds input.pollSeconds
      let measured := metrics input ready
      historyFindings input windowSeconds ready ++ measured ++
        stabilityFindings input (ready && measured.all fun finding => !finding.blocks)

def burstFindings (input : GuardReportInput) : List Finding :=
  let safeguards := input.safeguards
  match safeguards.active safeguards.burstWindowMinutes, safeguards.active safeguards.burstTriggerCount,
    safeguards.active safeguards.burstCooldownMinutes with
  | some _, some burstTriggerCount, some burstCooldownMinutes =>
    let recent := input.recentCompletedCycles.map fun (recent : ℕ) => (recent : ℚ)
    let burstWaitUntil := input.burstWaitUntil.getD 0
    if input.now < burstWaitUntil then
      [⟨{ id := .burstThrottle, status := .wait
          measured := recent
          threshold := some burstTriggerCount
          waitUntil := input.burstWaitUntil
          remainingSeconds := some (burstWaitUntil - input.now)
          totalSeconds := some (burstCooldownMinutes * 60) }, true⟩]
    else if recent.any fun recent => burstTriggerCount - 1 ≤ recent then
      [⟨{ id := .burstThrottle, status := .wait, measured := recent, threshold := some burstTriggerCount }, false⟩]
    else
      [⟨{ id := .burstThrottle, status := .pass, measured := recent, threshold := some burstTriggerCount }, false⟩]
  | _, _, _ => []

def capFindings (id : GuardConditionId) (limit : Option ℚ) (count : Option ℕ) (release : Option ℚ) (remaining : ℚ → ℚ) :
    List Finding :=
  match limit, count with
  | some limit, some count =>
    let saturated : Bool := limit ≤ (count : ℚ)
    let waitUntil := if saturated then release else none
    [⟨{ id, status := if saturated then .wait else .pass
        measured := some (count : ℚ)
        threshold := some limit
        waitUntil
        remainingSeconds := waitUntil.map remaining }, saturated⟩]
  | _, _ => []

def dailyCapFindings (input : GuardReportInput) : List Finding :=
  capFindings .dailyRebalanceCap (input.safeguards.active input.safeguards.maxRebalancesPerDay) input.completedTodayCycles
    (some (nextUtcDayStart input.now)) fun waitUntil => waitUntil - input.now

def lowerBreakFindings (input : GuardReportInput) : List Finding :=
  capFindings .consecutiveLowerBreaks (input.safeguards.active input.safeguards.maxConsecutiveLowerBreaks) input.lowerBreakCount
    input.lowerBreakWaitUntil fun waitUntil => max 0 (waitUntil - input.now)

def cooldownFindings (input : GuardReportInput) : List Finding :=
  match truthy input.cooldownUntil with
  | none => []
  | some cooldownUntil =>
    if input.now < cooldownUntil then
      [⟨{ id := .triggerCooldown, status := .wait, waitUntil := some cooldownUntil
          remainingSeconds := some (cooldownUntil - input.now) }, false⟩]
    else []

/-- `Math.round(value * 100) / 100`. -/
def roundCents (value : ℚ) : ℚ :=
  (⌊value * 100 + 1 / 2⌋ : ℚ) / 100

def economicsFindings (input : GuardReportInput) : List Finding :=
  match input.economics with
  | none => []
  | some economics =>
    if economics.coverage ≤ 0 then []
    else
      let required := economics.costQuote.map fun cost => roundCents (cost * economics.coverage)
      if input.now < economics.waitUntil then
        [⟨{ id := .cycleEconomics, status := .wait
            measured := economics.feesQuote
            threshold := required
            waitUntil := some economics.waitUntil
            remainingSeconds := some (economics.waitUntil - input.now) }, true⟩]
      else [⟨{ id := .cycleEconomics, status := .pass, measured := economics.feesQuote, threshold := required }, false⟩]

def confirmationFindings (input : GuardReportInput) : List Finding :=
  match input.outSide, truthy input.outSince with
  | some side, some outSince =>
    if input.confirmationSeconds ≤ 0 then []
    else
      let elapsed := input.now - outSince
      if elapsed < input.confirmationSeconds then
        [⟨{ id := .boundaryConfirmation, status := .wait, side := some side
            waitUntil := some (outSince + input.confirmationSeconds)
            remainingSeconds := some (input.confirmationSeconds - elapsed)
            totalSeconds := some input.confirmationSeconds }, false⟩]
      else
        [⟨{ id := .boundaryConfirmation, status := .pass, side := some side, totalSeconds := some input.confirmationSeconds }, false⟩]
  | _, _ => []

def pauseFindings (input : GuardReportInput) : List Finding :=
  if input.state.manual = false then []
  else
    let boundary : List Finding := match input.pause with
      | some ⟨.boundary side, eventAt⟩ => [⟨{ id := .boundaryPause, status := .fail, side := some side, eventAt := some eventAt }, true⟩]
      | _ => []
    let apr : List Finding := match input.pause with
      | some ⟨.aprUnavailable, eventAt⟩ => [⟨{ id := .aprAvailable, status := .fail, eventAt := some eventAt }, true⟩]
      | _ => []
    let manual : List Finding :=
      if input.state = .awaitingManual then [⟨{ id := .manualConfirm, status := .wait }, true⟩] else []
    boundary ++ apr ++ manual

def evaluated (input : GuardReportInput) : List Finding :=
  marketFindings input ++ burstFindings input ++ dailyCapFindings input ++ lowerBreakFindings input ++ cooldownFindings input ++
    economicsFindings input ++ confirmationFindings input ++ pauseFindings input

def recheckFindings (input : GuardReportInput) : List Finding :=
  if input.state.waiting && (evaluated input).all fun finding => !finding.blocks then
    [⟨{ id := .monitorRecheck, status := .wait, remainingSeconds := some (max input.pollSeconds 1) }, true⟩]
  else []

def findings (input : GuardReportInput) : List Finding :=
  evaluated input ++ recheckFindings input

def buildGuardReport (input : GuardReportInput) : GuardReport where
  waiting := input.state.waiting
  needsManualResume := input.state.manual
  blocking := ((findings input).filter Finding.blocks).map fun finding => finding.condition.id
  conditions := (findings input).map Finding.condition
  checkedAt := input.now

structure PriceSample where
  ts : ℚ
  tick : ℤ
  blockNumber : ℕ

abbrev PriceSamples := Table PriceSample.ts

def recordPriceSample (samples : PriceSamples) (timestamp : ℚ) (tick : ℤ) (blockNumber : ℕ) : PriceSamples :=
  (samples.put ⟨timestamp, tick, blockNumber⟩).keep fun sample => timestamp - 86400 ≤ sample.ts

def since (samples : PriceSamples) (start : ℚ) : List PriceSample :=
  samples.rows.filter fun sample => start ≤ sample.ts

/-- `Math.round(AVG(tick))`. -/
def averageTick (window : List PriceSample) : ℤ :=
  ⌊((window.map PriceSample.tick).sum : ℚ) / window.length + 1 / 2⌋

/-- `MIN` and `MAX` of no rows are null. -/
def sampledTickStats (samples : PriceSamples) (start : ℚ) : Option GuardMarketStats := do
  let window := since samples start
  let firstTs ← (window.map PriceSample.ts).min?
  let lastTs ← (window.map PriceSample.ts).max?
  let minTick ← (window.map PriceSample.tick).min?
  let maxTick ← (window.map PriceSample.tick).max?
  return ⟨window.length, firstTs, lastTs, averageTick window, minTick, maxTick⟩

structure SampledAverage where
  tick : ℤ
  firstTs : ℚ
  lastTs : ℚ
  count : ℕ

def sampledAverageTick (samples : PriceSamples) (start : ℚ) : Option SampledAverage := do
  let window := since samples start
  let firstTs ← (window.map PriceSample.ts).min?
  let lastTs ← (window.map PriceSample.ts).max?
  return ⟨averageTick window, firstTs, lastTs, window.length⟩

def completedCyclesSince (cycles : List CompletedCycleRef) (start : ℚ) : ℕ :=
  cycles.countP fun cycle => start ≤ cycle.completedAt

def recentCycleSides (cycles : List CompletedCycleRef) : List CompletedCycleRef :=
  (cycles.insertionSort fun newer older => older.completedAt ≤ newer.completedAt).take 1000

def consecutiveLowerBreaks (cycles : List CompletedCycleRef) (now windowSeconds : ℚ) : ℕ :=
  countConsecutiveLowerBreaks now windowSeconds (recentCycleSides cycles)

def latestCompletedCycleAt (cycles : List CompletedCycleRef) : Option ℚ :=
  (cycles.map CompletedCycleRef.completedAt).max?

structure MonitorState where
  revision : ℕ
  outSide : Option Side := none
  outSince : Option ℚ := none
  cooldownUntil : Option ℚ := none
  guardReason : Option GuardReason := none
  guardStableSince : Option ℚ := none
  burstWaitUntil : Option ℚ := none
  burstResetAt : Option ℚ := none
  econWaitUntil : Option ℚ := none
  econFeesQuote : Option ℤ := none
  econCostQuote : Option ℤ := none
  lastTick : Option ℤ := none
  lastLiquidity : Option ℕ := none
  lastTokenId : Option ℕ := none

variable {samples : PriceSamples} {now start : ℚ} {tick : ℤ} {blockNumber : ℕ} {stats : GuardMarketStats}

theorem recorded_since (recent : start ≤ now) :
    ⟨now, tick, blockNumber⟩ ∈ since (recordPriceSample samples now tick blockNumber) start := by
  refine List.mem_filter.mpr ⟨Table.mem_keep.mpr ⟨Table.mem_put.mpr (Or.inl rfl), ?_⟩, decide_eq_true recent⟩
  exact decide_eq_true (by linarith)

theorem sampledTickStats_eq (read : sampledTickStats samples start = some stats) :
    stats.count = (since samples start).length ∧ ((since samples start).map PriceSample.ts).min? = some stats.firstTs := by
  unfold sampledTickStats at read
  simp only [Option.bind_eq_bind, Option.bind_eq_some_iff, Option.pure_def, Option.some.injEq] at read
  obtain ⟨firstTs, first, _, _, _, _, _, _, rfl⟩ := read
  exact ⟨rfl, first⟩

theorem sampledTickStats_none (read : sampledTickStats samples start = none) : since samples start = [] := by
  unfold sampledTickStats at read
  cases window : since samples start with
  | nil => rfl
  | cons sample rest => simp [window] at read

theorem recorded_stats (recent : start ≤ now) :
    ∃ stats, sampledTickStats (recordPriceSample samples now tick blockNumber) start = some stats ∧ start ≤ stats.firstTs ∧
      stats.firstTs ≤ now ∧ (stats.count < 2 → stats.firstTs = now) := by
  have member := @recorded_since samples now start tick blockNumber recent
  cases read : sampledTickStats (recordPriceSample samples now tick blockNumber) start with
  | none =>
    rw [sampledTickStats_none read] at member
    cases member
  | some stats =>
    obtain ⟨count, first⟩ := sampledTickStats_eq read
    obtain ⟨inside, least⟩ := List.min?_eq_some_iff.mp first
    obtain ⟨earliest, old, here⟩ := List.mem_map.mp inside
    refine ⟨stats, rfl, ?_, least now (List.mem_map.mpr ⟨_, member, rfl⟩), fun few => ?_⟩
    · rw [← here]
      exact of_decide_eq_true (List.mem_filter.mp old).2
    · rw [count] at few
      cases window : since (recordPriceSample samples now tick blockNumber) start with
      | nil =>
        rw [window] at member
        cases member
      | cons only rest =>
        rw [window] at few old member
        have alone : rest = [] := List.length_eq_zero_iff.mp (by rw [List.length_cons] at few; omega)
        subst alone
        rw [← here, List.mem_singleton.mp old, ← List.mem_singleton.mp member]

inductive TriggerSource
  | spot | sampledTwap

structure MonitorConfig where
  revision : ℕ
  source : TriggerSource
  pollSeconds : Bounded 1 60
  confirmationSeconds : Bounded 0 3600
  cooldownMinutes : Bounded 0 1440
  lower : BoundaryPolicy
  upper : BoundaryPolicy
  safeguards : Safeguards

structure PositionSnapshot where
  tick : ℤ
  tickLower : ℤ
  tickUpper : ℤ
  blockNumber : ℕ
  liquidity : ℕ
  tokenId : ℕ

structure MonitorStore where
  samples : PriceSamples
  cycles : List CompletedCycleRef
  state : Option MonitorState
  status : StrategyStatus

/-- A job a position in range is due for, and whether it could be planned; `unread` when its figures could not be read. -/
inductive InRangeJob
  | contraction (created : Bool)
  | fees (created : Bool)
  | unread

structure MonitorReads where
  inRangeJob : Option InRangeJob
  collectableFeesQuote : Option ℤ
  lastCycleCostQuote : Option ℤ
  created : Bool

inductive Gate
  | history | market (reason : GuardReason) | stability | burst | dailyCap | lowerBreak
  deriving DecidableEq, Repr

inductive Exit
  | parked (gate : Gate)
  /-- Past the market guard, the burst guard and both caps. -/
  | passed
  | elsewhere
  deriving DecidableEq, Repr

structure Pass where
  store : MonitorStore
  exit : Exit

def plannedStatus (created : Bool) : StrategyStatus :=
  if created then .planned else .monitoring

/-- The tick the boundary is compared with; `none` while the sampled average is not ready. -/
def triggerTick (config : MonitorConfig) (snapshot : PositionSnapshot) (now : ℚ) (samples : PriceSamples) : Option ℤ :=
  match config.source with
  | .spot => some snapshot.tick
  | .sampledTwap =>
    let windowSeconds := max (max 60 config.confirmationSeconds.val) (config.pollSeconds.val * 3)
    match sampledAverageTick samples (now - windowSeconds) with
    | none => none
    | some average =>
      if average.count < 2 ∨ now - windowSeconds + config.pollSeconds.val * 2 < average.firstTs then none else some average.tick

def outSince (config : MonitorConfig) (snapshot : PositionSnapshot) (now : ℚ) (previous : Option MonitorState) (side : Option Side) :
    Option ℚ :=
  match side, previous with
  | none, _ => none
  | some _, none => some now
  | some side, some previous =>
    if previous.revision ≠ config.revision ∨ previous.lastTokenId ≠ some snapshot.tokenId ∨ previous.outSide ≠ some side then some now
    else some (previous.outSince.getD now)

def observed (config : MonitorConfig) (snapshot : PositionSnapshot) (previous : Option MonitorState) (side : Option Side)
    (outSince : Option ℚ) : MonitorState where
  revision := config.revision
  outSide := side
  outSince := outSince
  econWaitUntil := previous.bind MonitorState.econWaitUntil
  econFeesQuote := previous.bind MonitorState.econFeesQuote
  econCostQuote := previous.bind MonitorState.econCostQuote
  lastTick := some snapshot.tick
  lastLiquidity := some snapshot.liquidity
  lastTokenId := some snapshot.tokenId

def MonitorState.carryBurst (state : MonitorState) (previous : Option MonitorState) : MonitorState :=
  { state with
    burstWaitUntil := previous.bind MonitorState.burstWaitUntil
    burstResetAt := previous.bind MonitorState.burstResetAt }

def MonitorState.clearEconomics (state : MonitorState) : MonitorState :=
  { state with econWaitUntil := none, econFeesQuote := none, econCostQuote := none }

def marketGuard (config : MonitorConfig) (snapshot : PositionSnapshot) (now : ℚ) (samples : PriceSamples)
    (previous : Option MonitorState) (seen : MonitorState) : Option (Gate × MonitorState) :=
  let safeguards := config.safeguards
  match truthy (safeguards.active safeguards.volatilityWindowSeconds) with
  | none => none
  | some windowSeconds =>
    if safeguards.maxVolatilityBps.isNone && safeguards.maxSpotTwapDeviationBps.isNone then none
    else match sampledTickStats samples (now - windowSeconds) with
      | none => some (.history, { seen with guardReason := previous.bind MonitorState.guardReason })
      | some stats =>
        if stats.count < 2 ∨ now - windowSeconds + config.pollSeconds.val * 2 < stats.firstTs then
          some (.history, { seen with guardReason := previous.bind MonitorState.guardReason })
        else
          let quality := evaluateMarketQuality snapshot.tick stats.tick stats.minTick stats.maxTick
            (number safeguards.maxVolatilityBps) (number safeguards.maxSpotTwapDeviationBps)
          match quality.reason with
          | some reason => some (.market reason, { seen.carryBurst previous with guardReason := some reason })
          | none =>
            match previous.bind MonitorState.guardReason with
            | none => none
            | some reason =>
              let stableSince := (previous.bind MonitorState.guardStableSince).getD now
              if now - stableSince < (number safeguards.stableMarketSeconds).getD 0 then
                some (.stability, { seen.carryBurst previous with guardReason := some reason, guardStableSince := some stableSince })
              else none

/-- The state the burst guard parks with; `state` carries the wait of the previous row. -/
def burstGuard (config : MonitorConfig) (now : ℚ) (cycles : List CompletedCycleRef) (previous : Option MonitorState)
    (state : MonitorState) : Option MonitorState :=
  let safeguards := config.safeguards
  match truthy ((safeguards.active safeguards.burstWindowMinutes).map (· * 60)),
    truthy (safeguards.active safeguards.burstTriggerCount),
    truthy ((safeguards.active safeguards.burstCooldownMinutes).map (· * 60)) with
  | some burstWindowSeconds, some burstTriggerCount, some burstCooldownSeconds =>
    if now < (previous.bind MonitorState.burstWaitUntil).getD 0 then some state
    else
      let since := max (now - burstWindowSeconds) ((previous.bind MonitorState.burstResetAt).getD 0)
      if shouldStartBurstWait (completedCyclesSince cycles since) burstTriggerCount then
        let waitUntil := now + burstCooldownSeconds
        some { state with burstWaitUntil := some waitUntil, burstResetAt := some waitUntil }
      else none
  | _, _, _ => none

def utcDayStart (now : ℚ) : ℚ :=
  ⌊now / 86400⌋ * 86400

def dailyWaitUntil (safeguards : Safeguards) (now : ℚ) (cycles : List CompletedCycleRef) : Option ℚ :=
  (safeguards.active safeguards.maxRebalancesPerDay).bind fun dailyCap =>
    if dailyCap ≤ completedCyclesSince cycles (utcDayStart now) then some (nextUtcDayStart now) else none

def lowerBreakResetAt (safeguards : Safeguards) (now : ℚ) (cycles : List CompletedCycleRef) : Option ℚ :=
  (safeguards.active safeguards.maxConsecutiveLowerBreaks).bind fun lowerBreakCap =>
    let capWindowSeconds := lowerBreakWindowSeconds safeguards
    if lowerBreakCap ≤ consecutiveLowerBreaks cycles now capWindowSeconds then
      consecutiveLowerBreakResetAt (recentCycleSides cycles) now capWindowSeconds lowerBreakCap
    else none

def capGuard (config : MonitorConfig) (now : ℚ) (cycles : List CompletedCycleRef) (side : Side) : Option Gate :=
  match dailyWaitUntil config.safeguards now cycles,
    (if side = .lower then lowerBreakResetAt config.safeguards now cycles else none) with
  | some _, _ => some .dailyCap
  | none, some _ => some .lowerBreak
  | none, none => none

def confirmationSeconds (config : MonitorConfig) : ℚ :=
  max config.confirmationSeconds.val
    (if config.safeguards.enabled then (number config.safeguards.minCrossingMinutes).getD 0 * 60 else 0)

def cooldownUntil (config : MonitorConfig) (cycles : List CompletedCycleRef) : Option ℚ :=
  (truthy (latestCompletedCycleAt cycles)).bind fun latest =>
    if 0 < config.cooldownMinutes.val then some (latest + config.cooldownMinutes.val * 60) else none

def planPass (config : MonitorConfig) (now : ℚ) (reads : MonitorReads) (store : MonitorStore) (action : BoundaryAction)
    (state : MonitorState) : Pass :=
  let safeguards := config.safeguards
  let planned (state : MonitorState) : Pass := ⟨{ store with state := some state, status := plannedStatus reads.created }, .passed⟩
  if action ≠ .holdQuote ∧ safeguards.enabled ∧ 0 < (number safeguards.minCycleFeeCoverage).getD 0 then
    let escapeSeconds := (number safeguards.economicsHoldMinutes).getD 30 * 60
    match reads.collectableFeesQuote with
    | none => ⟨{ store with state := some state, status := .monitoring }, .passed⟩
    | some fees =>
      match decideCycleEconomics now state.outSince fees reads.lastCycleCostQuote (number safeguards.minCycleFeeCoverage)
          escapeSeconds with
      | .wait waitUntil feesQuoteRaw costQuoteRaw =>
        let waits : MonitorState :=
          { state with econWaitUntil := some waitUntil, econFeesQuote := some feesQuoteRaw, econCostQuote := some costQuoteRaw }
        ⟨{ store with state := some waits, status := .guardWait }, .passed⟩
      | .execute =>
        let waited := store.state.bind MonitorState.econWaitUntil
        planned (if now < waited.getD 0 ∨ (truthy waited).isSome then state.clearEconomics else state)
  else planned state

def boundaryPass (config : MonitorConfig) (snapshot : PositionSnapshot) (tick : ℤ) (now : ℚ) (reads : MonitorReads)
    (store : MonitorStore) (seen : MonitorState) : Pass :=
  let previous := store.state
  match seen.outSide, reads.inRangeJob with
  | none, some (.contraction created) => ⟨{ store with status := plannedStatus created }, .elsewhere⟩
  | none, some (.fees created) => ⟨{ store with state := some seen, status := plannedStatus created }, .elsewhere⟩
  | none, some .unread => ⟨{ store with status := .monitoring }, .elsewhere⟩
  | _, _ =>
    let cooldownUntil := cooldownUntil config store.cycles
    let decision := decideBoundaryTrigger
      { tick, tickLower := snapshot.tickLower, tickUpper := snapshot.tickUpper, lower := config.lower, upper := config.upper, now
        outOfRangeSince := seen.outSince, confirmationSeconds := confirmationSeconds config, cooldownUntil, netAprPct := none
        minNetAprPct := config.safeguards.active config.safeguards.minNetAprPct }
    let state := { seen.carryBurst previous with cooldownUntil }
    let moot := if (truthy (previous.bind MonitorState.econWaitUntil)).isSome then state.clearEconomics else state
    match decision with
    | .none _ =>
      -- A burst wait outlives a pass without a trigger, whatever the configuration says now.
      if now < (previous.bind MonitorState.burstWaitUntil).getD 0 then
        ⟨{ store with state := some moot, status := .guardWait }, .parked .burst⟩
      else ⟨{ store with state := some moot, status := .monitoring }, .elsewhere⟩
    | .pause reason =>
      ⟨{ store with state := some moot, status := if reason = .manualConfirm then .awaitingManual else .pausedGuard }, .elsewhere⟩
    | .execute side action _ =>
      match burstGuard config now store.cycles previous state with
      | some waits => ⟨{ store with state := some waits, status := .guardWait }, .parked .burst⟩
      | none =>
        match capGuard config now store.cycles side with
        | some gate => ⟨{ store with state := some state, status := .guardWait }, .parked gate⟩
        | none => planPass config now reads store action state

/-- `monitorOnce` over one strategy whose snapshot was read. -/
def monitorPass (config : MonitorConfig) (snapshot : PositionSnapshot) (now : ℚ) (reads : MonitorReads) (store : MonitorStore) : Pass :=
  let previous := store.state
  if previous.any (fun row => row.revision = config.revision && row.lastTokenId = some snapshot.tokenId &&
      row.lastLiquidity.any fun liquidity => liquidity ≠ snapshot.liquidity) then
    -- `E_POSITION_CHANGED`
    ⟨{ store with status := .monitoring }, .elsewhere⟩
  else
    let samples := recordPriceSample store.samples now snapshot.tick snapshot.blockNumber
    let store := { store with samples }
    match triggerTick config snapshot now samples with
    | none =>
      let row : MonitorState :=
        { revision := config.revision, lastTick := some snapshot.tick, lastLiquidity := some snapshot.liquidity
          lastTokenId := some snapshot.tokenId }
      ⟨{ store with state := some row, status := .monitoring }, .elsewhere⟩
    | some tick =>
      let side := rangeSide tick snapshot.tickLower snapshot.tickUpper
      let seen := observed config snapshot previous side (outSince config snapshot now previous side)
      match marketGuard config snapshot now samples previous seen with
      | some (gate, written) => ⟨{ store with state := some written, status := .guardWait }, .parked gate⟩
      | none => boundaryPass config snapshot tick now reads store seen

def humanQuote (settlementDecimals : ℕ) (raw : ℤ) : ℚ :=
  (⌊(raw : ℚ) / 10 ^ settlementDecimals * 10000 + 1 / 2⌋ : ℚ) / 10000

def reportInput (settlementDecimals : ℕ) (config : MonitorConfig) (now : ℚ) (pause : Option GuardPauseInfo) (store : MonitorStore) :
    GuardReportInput :=
  let safeguards := config.safeguards
  let row := store.state
  let windowSeconds := safeguards.active safeguards.volatilityWindowSeconds
  let burstWindowMinutes := if (safeguards.active safeguards.burstTriggerCount).isSome && (safeguards.active safeguards.burstCooldownMinutes).isSome
    then safeguards.active safeguards.burstWindowMinutes else none
  { state := store.status
    now
    safeguards
    pollSeconds := config.pollSeconds.val
    confirmationSeconds := confirmationSeconds config
    guardReason := row.bind MonitorState.guardReason
    guardStableSince := row.bind MonitorState.guardStableSince
    burstWaitUntil := row.bind MonitorState.burstWaitUntil
    cooldownUntil := row.bind MonitorState.cooldownUntil
    outSide := row.bind MonitorState.outSide
    outSince := row.bind MonitorState.outSince
    spotTick := row.bind MonitorState.lastTick
    marketStats := windowSeconds.bind fun windowSeconds =>
      if safeguards.maxVolatilityBps.isSome || safeguards.maxSpotTwapDeviationBps.isSome
      then sampledTickStats store.samples (now - windowSeconds) else none
    recentCompletedCycles := burstWindowMinutes.map fun minutes =>
      completedCyclesSince store.cycles (max (now - minutes * 60) ((row.bind MonitorState.burstResetAt).getD 0))
    completedTodayCycles := (safeguards.active safeguards.maxRebalancesPerDay).map fun _ =>
      completedCyclesSince store.cycles (utcDayStart now)
    lowerBreakCount := (safeguards.active safeguards.maxConsecutiveLowerBreaks).map fun _ =>
      consecutiveLowerBreaks store.cycles now (lowerBreakWindowSeconds safeguards)
    lowerBreakWaitUntil := lowerBreakResetAt safeguards now store.cycles
    pause := if store.status.manual then pause else none
    economics := (safeguards.active safeguards.minCycleFeeCoverage).bind fun coverage =>
      if 0 < coverage then
        some { waitUntil := (row.bind MonitorState.econWaitUntil).getD 0
               feesQuote := (row.bind MonitorState.econFeesQuote).map (humanQuote settlementDecimals)
               costQuote := (row.bind MonitorState.econCostQuote).map (humanQuote settlementDecimals)
               coverage }
      else none }

def guardReportFor (settlementDecimals : ℕ) (config : MonitorConfig) (now : ℚ) (pause : Option GuardPauseInfo) (store : MonitorStore) :
    GuardReport :=
  buildGuardReport (reportInput settlementDecimals config now pause store)

end LpTerminal.Monitor
