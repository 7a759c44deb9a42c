import LpTerminal.Monitor.Pass

/-!
The report agrees with the pass: it names the guard a strategy was parked by, and none of the market,
stability and burst guards once a pass went through them.
-/

namespace LpTerminal.Monitor

variable {input : GuardReportInput} {finding : Finding} {id : GuardConditionId} {config : MonitorConfig} {snapshot : PositionSnapshot}
  {now : ℚ} {reads : MonitorReads} {store : MonitorStore} {samples : PriceSamples} {previous : Option MonitorState}
  {seen written : MonitorState} {gate : Gate} {settlementDecimals : ℕ} {pause : Option GuardPauseInfo}

theorem mem_blocking : id ∈ (buildGuardReport input).blocking ↔ ∃ finding ∈ findings input, finding.blocks ∧ finding.condition.id = id := by
  unfold buildGuardReport
  simp [List.mem_map, List.mem_filter, and_assoc]

theorem reported (member : finding ∈ evaluated input) (blocks : finding.blocks) :
    finding.condition.id ∈ (buildGuardReport input).blocking ∧ finding.condition ∈ (buildGuardReport input).conditions := by
  have found : finding ∈ findings input := List.mem_append_left _ member
  exact ⟨mem_blocking.mpr ⟨finding, found, blocks, rfl⟩, List.mem_map.mpr ⟨finding, found, rfl⟩⟩

theorem cap_id {limit : Option ℚ} {count : Option ℕ} {release : Option ℚ} {remaining : ℚ → ℚ}
    (member : finding ∈ capFindings id limit count release remaining) : finding.condition.id = id := by
  unfold capFindings at member
  split at member
  · rw [List.mem_singleton.mp member]
  · cases member

def guardConditions : List GuardConditionId :=
  [.sampleHistory, .marketVolatility, .spotTwapDeviation, .guardRecoveryStability, .burstThrottle]

theorem cooldown_unguarded (member : finding ∈ cooldownFindings input) : finding.condition.id ∉ guardConditions := by
  unfold cooldownFindings at member
  split at member
  · cases member
  · split_ifs at member
    · rw [List.mem_singleton.mp member]
      dsimp only
      decide
    · cases member

theorem economics_unguarded (member : finding ∈ economicsFindings input) : finding.condition.id ∉ guardConditions := by
  unfold economicsFindings at member
  split at member
  · cases member
  · dsimp only at member
    split_ifs at member
    · cases member
    all_goals
      rw [List.mem_singleton.mp member]
      dsimp only
      decide

theorem confirmation_unguarded (member : finding ∈ confirmationFindings input) : finding.condition.id ∉ guardConditions := by
  unfold confirmationFindings at member
  split at member
  · dsimp only at member
    split_ifs at member
    · cases member
    all_goals
      rw [List.mem_singleton.mp member]
      dsimp only
      decide
  · cases member

theorem pause_unguarded (member : finding ∈ pauseFindings input) : finding.condition.id ∉ guardConditions := by
  unfold pauseFindings at member
  split at member
  · cases member
  · rcases List.mem_append.mp member with member | member
    · rcases List.mem_append.mp member with member | member
      all_goals
        split at member
        · rw [List.mem_singleton.mp member]
          dsimp only
          decide
        · cases member
    · split at member
      · rw [List.mem_singleton.mp member]
        dsimp only
        decide
      · cases member

theorem recheck_unguarded (member : finding ∈ recheckFindings input) : finding.condition.id ∉ guardConditions := by
  unfold recheckFindings at member
  split at member
  · rw [List.mem_singleton.mp member]
    dsimp only
    decide
  · cases member

theorem blocking_guard (guard : id ∈ guardConditions) (blocked : id ∈ (buildGuardReport input).blocking) :
    ∃ finding, (finding ∈ marketFindings input ∨ finding ∈ burstFindings input) ∧ finding.blocks ∧ finding.condition.id = id := by
  obtain ⟨finding, member, blocks, rfl⟩ := mem_blocking.mp blocked
  refine ⟨finding, ?_, blocks, rfl⟩
  unfold findings evaluated at member
  simp only [List.mem_append, or_assoc] at member
  rcases member with market | burst | daily | lower | cooldown | economics | confirmation | paused | recheck
  · exact Or.inl market
  · exact Or.inr burst
  · rw [cap_id daily] at guard
    exact absurd guard (by decide)
  · rw [cap_id lower] at guard
    exact absurd guard (by decide)
  · exact absurd guard (cooldown_unguarded cooldown)
  · exact absurd guard (economics_unguarded economics)
  · exact absurd guard (confirmation_unguarded confirmation)
  · exact absurd guard (pause_unguarded paused)
  · exact absurd guard (recheck_unguarded recheck)

/-- Both the pass and the report look at the market when a window and one of its limits are set. -/
structure MarketWatch (safeguards : Safeguards) (windowSeconds : ℚ) : Prop where
  window : safeguards.active safeguards.volatilityWindowSeconds = some windowSeconds
  limited : (safeguards.maxVolatilityBps.isNone && safeguards.maxSpotTwapDeviationBps.isNone) = false

variable {safeguards : Safeguards}

theorem MarketWatch.bounds {windowSeconds : ℚ} (watch : MarketWatch safeguards windowSeconds) :
    10 ≤ windowSeconds ∧ windowSeconds ≤ 3600 :=
  active_bounds watch.window

theorem MarketWatch.truthy {windowSeconds : ℚ} (watch : MarketWatch safeguards windowSeconds) :
    truthy (safeguards.active safeguards.volatilityWindowSeconds) = some windowSeconds := by
  rw [truthy_active (by norm_num), watch.window]

variable {windowSeconds : ℚ} {stats : GuardMarketStats}

def quality (config : MonitorConfig) (snapshot : PositionSnapshot) (stats : GuardMarketStats) : MarketQuality :=
  evaluateMarketQuality snapshot.tick stats.tick stats.minTick stats.maxTick
    (number config.safeguards.maxVolatilityBps) (number config.safeguards.maxSpotTwapDeviationBps)

def stableSeconds (config : MonitorConfig) : ℚ :=
  (number config.safeguards.stableMarketSeconds).getD 0

inductive Watched (config : MonitorConfig) (snapshot : PositionSnapshot) (now windowSeconds : ℚ) (stats : GuardMarketStats)
    (previous : Option MonitorState) (seen : MonitorState) : Option (Gate × MonitorState) → Prop
  | history (unready : historyReady (some stats) now windowSeconds config.pollSeconds.val = false) :
      Watched config snapshot now windowSeconds stats previous seen
        (some (.history, { seen with guardReason := previous.bind MonitorState.guardReason }))
  | market {reason : GuardReason} (ready : historyReady (some stats) now windowSeconds config.pollSeconds.val)
      (trips : (quality config snapshot stats).reason = some reason) :
      Watched config snapshot now windowSeconds stats previous seen
        (some (.market reason, { seen.carryBurst previous with guardReason := some reason }))
  | stability {reason : GuardReason} (ready : historyReady (some stats) now windowSeconds config.pollSeconds.val)
      (calm : (quality config snapshot stats).reason = none)
      (short : now - (previous.bind MonitorState.guardStableSince).getD now < stableSeconds config) :
      Watched config snapshot now windowSeconds stats previous seen
        (some (.stability, { seen.carryBurst previous with
          guardReason := some reason
          guardStableSince := some ((previous.bind MonitorState.guardStableSince).getD now) }))
  | through (ready : historyReady (some stats) now windowSeconds config.pollSeconds.val)
      (calm : (quality config snapshot stats).reason = none) :
      Watched config snapshot now windowSeconds stats previous seen none

theorem historyReady_iff {pollSeconds : ℚ} :
    historyReady (some stats) now windowSeconds pollSeconds = false ↔
      stats.count < 2 ∨ now - windowSeconds + pollSeconds * 2 < stats.firstTs := by
  unfold historyReady
  rw [Option.any_some, Bool.and_eq_false_iff, decide_eq_false_iff_not, decide_eq_false_iff_not, not_le, not_le]

theorem marketGuard_watched (watch : MarketWatch config.safeguards windowSeconds)
    (read : sampledTickStats samples (now - windowSeconds) = some stats) :
    Watched config snapshot now windowSeconds stats previous seen (marketGuard config snapshot now samples previous seen) := by
  unfold marketGuard
  simp only [watch.truthy, watch.limited, read]
  by_cases unready : stats.count < 2 ∨ now - windowSeconds + config.pollSeconds.val * 2 < stats.firstTs
  · rw [if_neg Bool.false_ne_true, if_pos unready]
    exact .history (historyReady_iff.mpr unready)
  · have ready : historyReady (some stats) now windowSeconds config.pollSeconds.val = true :=
      Bool.eq_true_of_not_eq_false fun early => unready (historyReady_iff.mp early)
    rw [if_neg Bool.false_ne_true, if_neg unready]
    split
    · rename_i reason trips
      exact .market ready trips
    · rename_i calm
      split
      · exact .through ready calm
      · split
        · rename_i short
          exact .stability ready calm short
        · exact .through ready calm

theorem marketGuard_unwatched (unwatched : ∀ windowSeconds, ¬ MarketWatch config.safeguards windowSeconds) :
    marketGuard config snapshot now samples previous seen = none := by
  unfold marketGuard
  simp only [truthy_active (show (0 : ℚ) < 10 by norm_num)]
  split
  · rfl
  · rename_i windowSeconds window
    rw [if_pos]
    exact Bool.eq_true_of_not_eq_false fun limited => unwatched windowSeconds ⟨window, limited⟩

theorem marketFindings_watched (watch : MarketWatch input.safeguards windowSeconds) (read : input.marketStats = some stats) :
    marketFindings input =
      let ready := historyReady (some stats) input.now windowSeconds input.pollSeconds
      historyFindings input windowSeconds ready ++ metrics input ready ++
        stabilityFindings input (ready && (metrics input ready).all fun finding => !finding.blocks) := by
  unfold marketFindings
  simp only [watch.truthy, watch.limited, read, Bool.false_eq_true, if_false]

theorem marketFindings_unwatched (unwatched : ∀ windowSeconds, ¬ MarketWatch input.safeguards windowSeconds) :
    marketFindings input = [] := by
  unfold marketFindings
  simp only [truthy_active (show (0 : ℚ) < 10 by norm_num)]
  split
  · rfl
  · rename_i windowSeconds window
    rw [if_pos]
    exact Bool.eq_true_of_not_eq_false fun limited => unwatched windowSeconds ⟨window, limited⟩

theorem metric_blocks {distance : GuardMarketStats → ℤ} {limit : Option ℚ} (exceeded : exceeds (distance stats) limit) :
    ∃ finding ∈ metricFindings id true (some stats) distance limit,
      finding.blocks ∧ finding.condition.id = id ∧ finding.condition.waitUntil = none := by
  cases limit with
  | none => cases exceeded
  | some limit => exact ⟨_, List.mem_singleton_self _, exceeded, rfl, rfl⟩

theorem metric_quiet {distance : GuardMarketStats → ℤ} {limit : Option ℚ} (within : exceeds (distance stats) limit = false)
    (member : finding ∈ metricFindings id true (some stats) distance limit) : finding.blocks = false := by
  cases limit with
  | none => cases member
  | some limit =>
    rw [List.mem_singleton.mp member]
    exact within

theorem quality_reason :
    match (quality config snapshot stats).reason with
    | some .marketVolatility => exceeds (tickDistanceBps stats.minTick stats.maxTick) (number config.safeguards.maxVolatilityBps)
    | some .spotTwapDeviation => exceeds (tickDistanceBps snapshot.tick stats.tick) (number config.safeguards.maxSpotTwapDeviationBps)
    | none => exceeds (tickDistanceBps stats.minTick stats.maxTick) (number config.safeguards.maxVolatilityBps) = false ∧
        exceeds (tickDistanceBps snapshot.tick stats.tick) (number config.safeguards.maxSpotTwapDeviationBps) = false := by
  unfold quality evaluateMarketQuality
  by_cases volatile : exceeds (tickDistanceBps stats.minTick stats.maxTick) (number config.safeguards.maxVolatilityBps)
  · simp only [volatile, if_true]
  · by_cases apart : exceeds (tickDistanceBps snapshot.tick stats.tick) (number config.safeguards.maxSpotTwapDeviationBps)
    · simp only [volatile, apart, if_true, Bool.false_eq_true, if_false]
    · simp only [volatile, apart, Bool.false_eq_true, if_false, and_self]

def Gate.condition : Gate → GuardConditionId
  | .history => .sampleHistory
  | .market .marketVolatility => .marketVolatility
  | .market .spotTwapDeviation => .spotTwapDeviation
  | .stability => .guardRecoveryStability
  | .burst => .burstThrottle
  | .dailyCap => .dailyRebalanceCap
  | .lowerBreak => .consecutiveLowerBreaks

def Gate.timed : Gate → Bool
  | .market _ => false
  | _ => true

def releases (now : ℚ) (gate : Gate) (waitUntil : Option ℚ) : Prop :=
  if gate.timed then ∃ release ∈ waitUntil, now ≤ release else waitUntil = none

structure Explains (report : GuardReport) (gate : Gate) : Prop where
  blocking : gate.condition ∈ report.blocking
  listed : ∃ condition ∈ report.conditions, condition.id = gate.condition ∧ releases report.checkedAt gate condition.waitUntil

theorem explains (member : finding ∈ evaluated input) (blocks : finding.blocks) (names : finding.condition.id = gate.condition)
    (release : releases input.now gate finding.condition.waitUntil) : Explains (buildGuardReport input) gate := by
  obtain ⟨blocking, listed⟩ := reported member blocks
  exact ⟨names ▸ blocking, finding.condition, listed, names, release⟩

theorem reportInput_stats (watch : MarketWatch config.safeguards windowSeconds) :
    (reportInput settlementDecimals config now pause store).marketStats = sampledTickStats store.samples (now - windowSeconds) := by
  have either : (config.safeguards.maxVolatilityBps.isSome || config.safeguards.maxSpotTwapDeviationBps.isSome) = true := by
    have limited := watch.limited
    cases volatility : config.safeguards.maxVolatilityBps with
    | some limit => rfl
    | none =>
      cases deviation : config.safeguards.maxSpotTwapDeviationBps with
      | some limit => rfl
      | none =>
        rw [volatility, deviation] at limited
        cases limited
  unfold reportInput
  simp only [watch.window, Option.bind_some, either, if_true]

theorem market_evaluated (member : finding ∈ marketFindings input) : finding ∈ evaluated input := by
  unfold evaluated
  simp only [List.mem_append]
  tauto

theorem burst_evaluated (member : finding ∈ burstFindings input) : finding ∈ evaluated input := by
  unfold evaluated
  simp only [List.mem_append]
  tauto

theorem metrics_watched {spotTick : ℤ} (read : input.marketStats = some stats) (spot : input.spotTick = some spotTick) :
    metrics input true =
      metricFindings .marketVolatility true (some stats) (fun stats => tickDistanceBps stats.minTick stats.maxTick)
          (number input.safeguards.maxVolatilityBps) ++
        metricFindings .spotTwapDeviation true (some stats) (fun stats => tickDistanceBps spotTick stats.tick)
          (number input.safeguards.maxSpotTwapDeviationBps) := by
  unfold metrics
  rw [read, spot]
  rfl

theorem metrics_calm (safeguards : input.safeguards = config.safeguards) (read : input.marketStats = some stats)
    (spot : input.spotTick = some snapshot.tick) (calm : (quality config snapshot stats).reason = none)
    (member : finding ∈ metrics input true) : finding.blocks = false := by
  have within := @quality_reason config snapshot stats
  rw [calm] at within
  rw [metrics_watched read spot, safeguards] at member
  rcases List.mem_append.mp member with volatility | deviation
  · apply metric_quiet _ volatility
    exact within.1
  · apply metric_quiet _ deviation
    exact within.2

theorem metrics_trip {reason : GuardReason} (safeguards : input.safeguards = config.safeguards) (read : input.marketStats = some stats)
    (spot : input.spotTick = some snapshot.tick) (trips : (quality config snapshot stats).reason = some reason) :
    ∃ finding ∈ metrics input true,
      finding.blocks ∧ finding.condition.id = (Gate.market reason).condition ∧ finding.condition.waitUntil = none := by
  have exceeded := @quality_reason config snapshot stats
  rw [trips] at exceeded
  rw [metrics_watched read spot, safeguards]
  cases reason with
  | marketVolatility =>
    obtain ⟨finding, member, rest⟩ := @metric_blocks .marketVolatility stats (fun stats => tickDistanceBps stats.minTick stats.maxTick) _ exceeded
    exact ⟨finding, List.mem_append_left _ member, rest⟩
  | spotTwapDeviation =>
    obtain ⟨finding, member, rest⟩ := @metric_blocks .spotTwapDeviation stats (fun stats => tickDistanceBps snapshot.tick stats.tick) _ exceeded
    exact ⟨finding, List.mem_append_right _ member, rest⟩

theorem stability_waits {reason : GuardReason} (held : input.guardReason = some reason)
    (short : input.now - input.guardStableSince.getD input.now < (number input.safeguards.stableMarketSeconds).getD 0) :
    ∃ finding ∈ stabilityFindings input true,
      finding.blocks ∧ finding.condition.id = .guardRecoveryStability ∧ releases input.now .stability finding.condition.waitUntil := by
  have lasts : 0 < input.guardStableSince.getD input.now + (number input.safeguards.stableMarketSeconds).getD 0 - input.now := by linarith
  unfold stabilityFindings
  simp only [held, Bool.true_eq_false, if_false, lt_max_iff, lt_self_iff_false, lasts, or_true, if_true]
  exact ⟨_, List.mem_singleton_self _, rfl, rfl, _, rfl, by linarith⟩

theorem market_explained (watch : MarketWatch config.safeguards windowSeconds)
    (read : sampledTickStats store.samples (now - windowSeconds) = some stats) (row : store.state = some written)
    (tick : seen.lastTick = some snapshot.tick)
    (deadline : gate = .history → stats.firstTs ≠ 0 ∧ now ≤ stats.firstTs + windowSeconds - config.pollSeconds.val * 2)
    (watched : Watched config snapshot now windowSeconds stats previous seen (some (gate, written))) :
    Explains (guardReportFor settlementDecimals config now pause store) gate := by
  generalize made : reportInput settlementDecimals config now pause store = input
  have measured : input.marketStats = some stats := by
    rw [← made]
    exact (reportInput_stats watch).trans read
  have fields : input.safeguards = config.safeguards ∧ input.now = now ∧ input.pollSeconds = config.pollSeconds.val := by
    rw [← made]
    exact ⟨rfl, rfl, rfl⟩
  obtain ⟨safeguards, at_now, poll⟩ := fields
  have all := marketFindings_watched (safeguards ▸ watch) measured
  rw [at_now, poll] at all
  unfold guardReportFor
  rw [made]
  cases watched with
  | history unready =>
    obtain ⟨nonzero, later⟩ := deadline rfl
    rw [unready] at all
    refine explains (market_evaluated (all ▸ List.mem_append_left _ (List.mem_append_left _ (List.mem_singleton_self _)))) rfl rfl ?_
    refine ⟨stats.firstTs + windowSeconds - config.pollSeconds.val * 2, ?_, at_now ▸ later⟩
    have present : truthy (some stats.firstTs) = some stats.firstTs := truthy_eq.mpr ⟨rfl, nonzero⟩
    simp only [readyDeadline, measured, Option.map_some, present, poll, Option.mem_def]
  | @market reason ready trips =>
    have spot : input.spotTick = some snapshot.tick := by
      rw [← made]
      simp only [reportInput, row, Option.bind_some]
      exact tick
    obtain ⟨finding, member, blocks, names, untimed⟩ := metrics_trip safeguards measured spot trips
    rw [ready] at all
    refine explains (market_evaluated (all ▸ List.mem_append_left _ (List.mem_append_right _ member))) blocks names ?_
    exact untimed
  | @stability reason ready calm short =>
    have spot : input.spotTick = some snapshot.tick := by
      rw [← made]
      simp only [reportInput, row, Option.bind_some]
      exact tick
    have held : input.guardReason = some reason ∧
        input.guardStableSince = some ((previous.bind MonitorState.guardStableSince).getD now) := by
      rw [← made]
      simp only [reportInput, row, Option.bind_some, and_self]
    have quiet : (metrics input true).all (fun finding => !finding.blocks) = true :=
      List.all_eq_true.mpr fun finding member => by rw [metrics_calm safeguards measured spot calm member]; rfl
    rw [ready] at all
    dsimp only at all
    rw [quiet, Bool.and_self] at all
    have waits : input.now - input.guardStableSince.getD input.now < (number input.safeguards.stableMarketSeconds).getD 0 := by
      rw [held.2, safeguards, at_now]
      exact short
    obtain ⟨finding, member, blocks, names, release⟩ := stability_waits held.1 waits
    exact explains (market_evaluated (all ▸ List.mem_append_right _ member)) blocks names release

theorem market_quiet (through : marketGuard config snapshot now store.samples previous seen = none)
    (reads : ∀ windowSeconds, MarketWatch config.safeguards windowSeconds →
      ∃ stats, sampledTickStats store.samples (now - windowSeconds) = some stats)
    (free : store.state.bind MonitorState.guardReason = none) (spot : store.state.bind MonitorState.lastTick = some snapshot.tick)
    (member : finding ∈ marketFindings (reportInput settlementDecimals config now pause store)) : finding.blocks = false := by
  by_cases watched : ∃ windowSeconds, MarketWatch config.safeguards windowSeconds
  · obtain ⟨windowSeconds, watch⟩ := watched
    obtain ⟨stats, read⟩ := reads windowSeconds watch
    have turn := @marketGuard_watched config snapshot now _ previous seen windowSeconds stats watch read
    rw [through] at turn
    cases turn with
    | through ready calm =>
      rw [marketFindings_watched watch ((reportInput_stats watch).trans read)] at member
      have ready : historyReady (some stats) (reportInput settlementDecimals config now pause store).now windowSeconds
        (reportInput settlementDecimals config now pause store).pollSeconds = true := ready
      rw [ready] at member
      rcases List.mem_append.mp member with member | stability
      · rcases List.mem_append.mp member with history | metric
        · cases history
        · exact metrics_calm rfl ((reportInput_stats watch).trans read) spot calm metric
      · unfold stabilityFindings at stability
        have none_held : (reportInput settlementDecimals config now pause store).guardReason = none := free
        rw [none_held] at stability
        cases stability
  · rw [marketFindings_unwatched fun windowSeconds watch => watched ⟨windowSeconds, watch⟩] at member
    cases member

def burstConfigured (safeguards : Safeguards) : Prop :=
  (safeguards.active safeguards.burstWindowMinutes).isSome ∧ (safeguards.active safeguards.burstTriggerCount).isSome ∧
    (safeguards.active safeguards.burstCooldownMinutes).isSome

theorem truthy_seconds {lo hi : ℚ} {setting : Option (Bounded lo hi)} (positive : 0 < lo) :
    truthy ((safeguards.active setting).map (· * 60)) = (safeguards.active setting).map (· * 60) := by
  cases read : safeguards.active setting with
  | none => rfl
  | some minutes =>
    have bounds := active_bounds read
    exact truthy_eq.mpr ⟨rfl, by linarith⟩

variable {cycles : List CompletedCycleRef} {state waits : MonitorState}

theorem burstConfigured_iff :
    burstConfigured safeguards ↔ ∃ windowMinutes triggerCount cooldownMinutes,
      safeguards.active safeguards.burstWindowMinutes = some windowMinutes ∧
        safeguards.active safeguards.burstTriggerCount = some triggerCount ∧
          safeguards.active safeguards.burstCooldownMinutes = some cooldownMinutes := by
  unfold burstConfigured
  simp only [Option.isSome_iff_exists]
  constructor
  · rintro ⟨⟨window, h⟩, ⟨count, h'⟩, ⟨cooldown, h''⟩⟩
    exact ⟨window, count, cooldown, h, h', h''⟩
  · rintro ⟨window, count, cooldown, h, h', h''⟩
    exact ⟨⟨window, h⟩, ⟨count, h'⟩, ⟨cooldown, h''⟩⟩

theorem burstGuard_configured {windowMinutes triggerCount cooldownMinutes : ℚ}
    (window : config.safeguards.active config.safeguards.burstWindowMinutes = some windowMinutes)
    (count : config.safeguards.active config.safeguards.burstTriggerCount = some triggerCount)
    (cooldown : config.safeguards.active config.safeguards.burstCooldownMinutes = some cooldownMinutes) :
    burstGuard config now cycles previous state =
      if now < (previous.bind MonitorState.burstWaitUntil).getD 0 then some state
      else if shouldStartBurstWait (completedCyclesSince cycles
          (max (now - windowMinutes * 60) ((previous.bind MonitorState.burstResetAt).getD 0))) triggerCount then
        some { state with burstWaitUntil := some (now + cooldownMinutes * 60), burstResetAt := some (now + cooldownMinutes * 60) }
      else none := by
  unfold burstGuard
  dsimp only
  rw [truthy_seconds (by norm_num), truthy_active (by norm_num), truthy_seconds (by norm_num), window, count, cooldown]
  rfl

theorem burstGuard_unconfigured (unconfigured : ¬ burstConfigured config.safeguards) :
    burstGuard config now cycles previous state = none := by
  unfold burstGuard
  dsimp only
  rw [truthy_seconds (by norm_num), truthy_active (by norm_num), truthy_seconds (by norm_num)]
  split
  · rename_i window count cooldown
    refine absurd ⟨?_, Option.isSome_of_eq_some count, ?_⟩ unconfigured
    · rw [← Option.isSome_map, window]
      rfl
    · rw [← Option.isSome_map, cooldown]
      rfl
  · rfl

theorem burstGuard_waits (carried : state.burstWaitUntil = previous.bind MonitorState.burstWaitUntil)
    (parks : burstGuard config now cycles previous state = some waits) :
    burstConfigured config.safeguards ∧ now < waits.burstWaitUntil.getD 0 := by
  by_cases configured : burstConfigured config.safeguards
  · refine ⟨configured, ?_⟩
    obtain ⟨windowMinutes, triggerCount, cooldownMinutes, window, count, cooldown⟩ := burstConfigured_iff.mp configured
    rw [burstGuard_configured window count cooldown] at parks
    split_ifs at parks with waiting starts
    · cases parks
      rw [carried]
      exact waiting
    · cases parks
      have bounds := active_bounds cooldown
      show now < now + cooldownMinutes * 60
      linarith
  · rw [burstGuard_unconfigured configured] at parks
    cases parks

theorem burstGuard_through (through : burstGuard config now cycles previous state = none)
    (configured : burstConfigured config.safeguards) : (previous.bind MonitorState.burstWaitUntil).getD 0 ≤ now := by
  obtain ⟨windowMinutes, triggerCount, cooldownMinutes, window, count, cooldown⟩ := burstConfigured_iff.mp configured
  rw [burstGuard_configured window count cooldown] at through
  by_contra waiting
  rw [if_pos (not_le.mp waiting)] at through
  cases through

theorem burst_explained (configured : burstConfigured config.safeguards)
    (waiting : now < (store.state.bind MonitorState.burstWaitUntil).getD 0) (clock : 0 ≤ now) :
    Explains (guardReportFor settlementDecimals config now pause store) .burst := by
  obtain ⟨windowMinutes, triggerCount, cooldownMinutes, window, count, cooldown⟩ := burstConfigured_iff.mp configured
  cases persisted : store.state.bind MonitorState.burstWaitUntil with
  | none =>
    rw [persisted] at waiting
    exact absurd waiting (not_lt.mpr clock)
  | some waitUntil =>
    rw [persisted] at waiting
    have found : ∃ finding ∈ burstFindings (reportInput settlementDecimals config now pause store),
        finding.blocks ∧ finding.condition.id = .burstThrottle ∧ releases now .burst finding.condition.waitUntil := by
      unfold burstFindings reportInput
      simp only [window, count, cooldown, persisted]
      rw [if_pos waiting]
      exact ⟨_, List.mem_singleton_self _, rfl, rfl, waitUntil, rfl, waiting.le⟩
    obtain ⟨finding, member, blocks, names, release⟩ := found
    exact explains (burst_evaluated member) blocks names release

theorem burst_quiet (released : burstConfigured config.safeguards → (store.state.bind MonitorState.burstWaitUntil).getD 0 ≤ now)
    (member : finding ∈ burstFindings (reportInput settlementDecimals config now pause store)) : finding.blocks = false := by
  unfold burstFindings at member
  dsimp only at member
  split at member
  · rename_i windowMinutes triggerCount cooldownMinutes window count cooldown
    have past := released ⟨Option.isSome_of_eq_some window, Option.isSome_of_eq_some count, Option.isSome_of_eq_some cooldown⟩
    have ended : ¬ (reportInput settlementDecimals config now pause store).now <
        (reportInput settlementDecimals config now pause store).burstWaitUntil.getD 0 := not_lt.mpr past
    rw [if_neg ended] at member
    split_ifs at member <;> rw [List.mem_singleton.mp member]
  · cases member

theorem cap_blocks {limit release : ℚ} {count : ℕ} {remaining : ℚ → ℚ} (saturated : limit ≤ count) :
    ∃ finding ∈ capFindings id (some limit) (some count) (some release) remaining,
      finding.blocks ∧ finding.condition.id = id ∧ finding.condition.waitUntil = some release := by
  refine ⟨_, List.mem_singleton_self _, decide_eq_true saturated, rfl, ?_⟩
  dsimp only
  rw [decide_eq_true saturated]
  rfl

theorem daily_explained {release : ℚ} (waits : dailyWaitUntil config.safeguards now store.cycles = some release) :
    Explains (guardReportFor settlementDecimals config now pause store) .dailyCap := by
  obtain ⟨dailyCap, configured, waits⟩ := Option.bind_eq_some_iff.mp waits
  split at waits
  · rename_i saturated
    obtain ⟨finding, member, blocks, names, release⟩ := @cap_blocks .dailyRebalanceCap dailyCap (nextUtcDayStart now)
      (completedCyclesSince store.cycles (utcDayStart now)) (fun waitUntil => waitUntil - now) saturated
    have listed : finding ∈ dailyCapFindings (reportInput settlementDecimals config now pause store) := by
      unfold dailyCapFindings reportInput
      simpa only [configured, Option.map_some] using member
    refine explains ?_ blocks names ⟨_, release, (now_lt_nextUtcDayStart now).le⟩
    unfold evaluated
    simp only [List.mem_append]
    tauto
  · cases waits

theorem lower_explained {release : ℚ} (waits : lowerBreakResetAt config.safeguards now store.cycles = some release) :
    Explains (guardReportFor settlementDecimals config now pause store) .lowerBreak := by
  have whole := waits
  obtain ⟨lowerBreakCap, configured, resets⟩ := Option.bind_eq_some_iff.mp waits
  dsimp only at resets
  split at resets
  · rename_i saturated
    obtain ⟨finding, member, blocks, names, listed⟩ := @cap_blocks .consecutiveLowerBreaks lowerBreakCap release
      (consecutiveLowerBreaks store.cycles now (lowerBreakWindowSeconds config.safeguards)) (fun waitUntil => max 0 (waitUntil - now)) saturated
    have inside : finding ∈ lowerBreakFindings (reportInput settlementDecimals config now pause store) := by
      unfold lowerBreakFindings reportInput
      simpa only [configured, Option.map_some, whole] using member
    refine explains ?_ blocks names ⟨release, listed, (resetAt_not_past resets).2⟩
    unfold evaluated
    simp only [List.mem_append]
    tauto
  · cases resets

inductive Ended (config : MonitorConfig) (snapshot : PositionSnapshot) (now : ℚ) (samples : PriceSamples) (previous : Option MonitorState)
    (after : MonitorStore) : Exit → Prop
  | market {seen written : MonitorState} {gate : Gate} (kept : after.samples = samples)
      (guard : marketGuard config snapshot now samples previous seen = some (gate, written)) (tick : seen.lastTick = some snapshot.tick)
      (row : after.state = some written) : Ended config snapshot now samples previous after (.parked gate)
  | burst (waiting : now < (after.state.bind MonitorState.burstWaitUntil).getD 0) :
      Ended config snapshot now samples previous after (.parked .burst)
  | cap {side : Side} {gate : Gate} (guard : capGuard config now after.cycles side = some gate) :
      Ended config snapshot now samples previous after (.parked gate)
  | passed {seen : MonitorState} (kept : after.samples = samples) (market : marketGuard config snapshot now samples previous seen = none)
      (burst : burstConfigured config.safeguards → (after.state.bind MonitorState.burstWaitUntil).getD 0 ≤ now)
      (free : after.state.bind MonitorState.guardReason = none) (spot : after.state.bind MonitorState.lastTick = some snapshot.tick) :
      Ended config snapshot now samples previous after .passed
  | elsewhere : Ended config snapshot now samples previous after .elsewhere

theorem planPass_row {action : BoundaryAction} :
    (planPass config now reads store action state).exit = .passed ∧
      (planPass config now reads store action state).store.samples = store.samples ∧
      ∃ row, (planPass config now reads store action state).store.state = some row ∧ row.guardReason = state.guardReason ∧
        row.burstWaitUntil = state.burstWaitUntil ∧ row.lastTick = state.lastTick := by
  unfold planPass
  dsimp only
  split
  · split
    · exact ⟨rfl, rfl, _, rfl, rfl, rfl, rfl⟩
    · split
      · exact ⟨rfl, rfl, _, rfl, rfl, rfl, rfl⟩
      · refine ⟨rfl, rfl, _, rfl, ?_⟩
        split <;> exact ⟨rfl, rfl, rfl⟩
  · exact ⟨rfl, rfl, _, rfl, rfl, rfl, rfl⟩

theorem planPass_ended {action : BoundaryAction} (market : marketGuard config snapshot now store.samples previous seen = none)
    (burst : burstConfigured config.safeguards → state.burstWaitUntil.getD 0 ≤ now) (free : state.guardReason = none)
    (spot : state.lastTick = some snapshot.tick) :
    Ended config snapshot now store.samples previous (planPass config now reads store action state).store
      (planPass config now reads store action state).exit := by
  obtain ⟨exit, kept, row, written, reason, waits, tick⟩ := @planPass_row config now reads store state action
  rw [exit]
  refine .passed kept market (fun configured => ?_) ?_ ?_
  · rw [written, Option.bind_some, waits]
    exact burst configured
  · rw [written, Option.bind_some, reason]
    exact free
  · rw [written, Option.bind_some, tick]
    exact spot

theorem boundaryPass_ended {tick : ℤ} (market : marketGuard config snapshot now store.samples store.state seen = none)
    (free : seen.guardReason = none) (spot : seen.lastTick = some snapshot.tick) :
    Ended config snapshot now store.samples store.state (boundaryPass config snapshot tick now reads store seen).store
      (boundaryPass config snapshot tick now reads store seen).exit := by
  unfold boundaryPass
  dsimp only
  split
  · exact .elsewhere
  · exact .elsewhere
  · exact .elsewhere
  · split
    · split
      · rename_i waiting
        refine .burst ?_
        simp only [Option.bind_some]
        split <;> exact waiting
      · exact .elsewhere
    · exact .elsewhere
    · split
      · rename_i waits parks
        exact .burst (burstGuard_waits rfl parks).2
      · rename_i through
        split
        · rename_i gate saturated
          exact .cap saturated
        · exact planPass_ended market (burstGuard_through through) free spot

theorem monitorPass_ended :
    Ended config snapshot now (recordPriceSample store.samples now snapshot.tick snapshot.blockNumber) store.state
      (monitorPass config snapshot now reads store).store (monitorPass config snapshot now reads store).exit := by
  unfold monitorPass
  dsimp only
  split
  · exact .elsewhere
  · split
    · exact .elsewhere
    · split
      · rename_i gate written guard
        exact .market rfl guard rfl rfl
      · rename_i through
        exact @boundaryPass_ended config snapshot now reads { store with samples := _ } _ _ through rfl rfl

/-- What the report can explain: a history gap with a window of two polls or two samples in it, and a
burst wait while the burst guard is configured. -/
def explicable (config : MonitorConfig) (now : ℚ) (samples : PriceSamples) : Gate → Prop
  | .history => ∀ windowSeconds, config.safeguards.active config.safeguards.volatilityWindowSeconds = some windowSeconds →
      2 * config.pollSeconds.val ≤ windowSeconds ∨ 2 ≤ (since samples (now - windowSeconds)).length
  | .burst => burstConfigured config.safeguards
  | _ => True

theorem history_deadline (clock : 3600 < now) (watch : MarketWatch config.safeguards windowSeconds) {tick : ℤ} {blockNumber : ℕ}
    (read : sampledTickStats (recordPriceSample samples now tick blockNumber) (now - windowSeconds) = some stats)
    (unready : historyReady (some stats) now windowSeconds config.pollSeconds.val = false)
    (closes : 2 * config.pollSeconds.val ≤ windowSeconds ∨
      2 ≤ (since (recordPriceSample samples now tick blockNumber) (now - windowSeconds)).length) :
    stats.firstTs ≠ 0 ∧ now ≤ stats.firstTs + windowSeconds - config.pollSeconds.val * 2 := by
  have bounds := watch.bounds
  obtain ⟨found, same, first, _, alone⟩ :=
    @recorded_stats samples now (now - windowSeconds) tick blockNumber (by linarith)
  cases read.symm.trans same
  refine ⟨by linarith, ?_⟩
  rcases historyReady_iff.mp unready with few | late
  · rcases closes with long | enough
    · rw [alone few]
      linarith
    · rw [(sampledTickStats_eq read).1] at few
      exact absurd enough (not_le.mpr few)
  · linarith

/-- A pass that parks a strategy is explained by the report of the state it wrote: the guard's condition
blocks, and every guard but the two market limits says when it ends, which is not past. After a pass
through every guard none of the market, stability and burst conditions blocks. -/
theorem monitorPass_explained (settlementDecimals : ℕ) (config : MonitorConfig) (snapshot : PositionSnapshot) (now : ℚ)
    (reads : MonitorReads) (store : MonitorStore) (pause : Option GuardPauseInfo) (clock : 3600 < now) :
    let pass := monitorPass config snapshot now reads store
    let report := guardReportFor settlementDecimals config now pause pass.store
    (∀ gate, pass.exit = .parked gate → explicable config now pass.store.samples gate → Explains report gate) ∧
      (pass.exit = .passed → ∀ id ∈ guardConditions, id ∉ report.blocking) := by
  intro pass report
  have ended : Ended config snapshot now (recordPriceSample store.samples now snapshot.tick snapshot.blockNumber) store.state
      pass.store pass.exit := monitorPass_ended
  constructor
  · intro gate parked explained
    rw [parked] at ended
    cases ended with
    | @market seen written _ kept guard tick row =>
      by_cases watched : ∃ windowSeconds, MarketWatch config.safeguards windowSeconds
      · obtain ⟨windowSeconds, watch⟩ := watched
        have bounds := watch.bounds
        obtain ⟨stats, read, _⟩ := @recorded_stats store.samples now (now - windowSeconds) snapshot.tick snapshot.blockNumber (by linarith)
        have turn := @marketGuard_watched config snapshot now _ store.state seen windowSeconds stats watch read
        rw [guard] at turn
        refine market_explained watch (kept ▸ read) row tick (fun history => ?_) turn
        subst history
        cases turn with
        | history unready => exact history_deadline clock watch read unready (kept ▸ explained windowSeconds watch.window)
      · rw [marketGuard_unwatched fun windowSeconds watch => watched ⟨windowSeconds, watch⟩] at guard
        cases guard
    | burst waiting => exact burst_explained explained waiting (by linarith)
    | @cap side _ guard =>
      unfold capGuard at guard
      split at guard
      · rename_i release daily
        cases guard
        exact daily_explained daily
      · rename_i release daily lower
        cases guard
        split at lower
        · exact lower_explained lower
        · cases lower
      · cases guard
  · intro through id guarded blocked
    rw [through] at ended
    cases ended with
    | @passed seen kept market burst free spot =>
      obtain ⟨finding, member, blocks, _⟩ := blocking_guard guarded blocked
      rcases member with onMarket | onBurst
      · have quiet : finding.blocks = false := by
          refine market_quiet (kept ▸ market) (fun windowSeconds watch => ?_) free spot onMarket
          have bounds := watch.bounds
          obtain ⟨stats, read, _⟩ := @recorded_stats store.samples now (now - windowSeconds) snapshot.tick snapshot.blockNumber (by linarith)
          exact ⟨stats, kept ▸ read⟩
        exact absurd blocks (by rw [quiet]; decide)
      · exact absurd blocks (by rw [burst_quiet burst onBurst]; decide)

def volatilityGuards : Safeguards where
  enabled := true
  minCrossingMinutes := none
  minNetAprPct := none
  minCycleFeeCoverage := none
  economicsHoldMinutes := none
  maxRebalancesPerDay := some ⟨1, by norm_num⟩
  maxConsecutiveLowerBreaks := none
  lowerBreakWindowMinutes := none
  volatilityWindowSeconds := some ⟨300, by norm_num⟩
  maxVolatilityBps := some ⟨1, by norm_num⟩
  maxSpotTwapDeviationBps := none
  stableMarketSeconds := none
  burstWindowMinutes := none
  burstTriggerCount := none
  burstCooldownMinutes := none

def volatilityConfig : MonitorConfig where
  revision := 1
  source := .spot
  pollSeconds := ⟨4, by norm_num⟩
  confirmationSeconds := ⟨0, by norm_num⟩
  cooldownMinutes := ⟨0, by norm_num⟩
  lower := ⟨.always, .recenter⟩
  upper := ⟨.always, .recenter⟩
  safeguards := volatilityGuards

def position (tick : ℤ) : PositionSnapshot := ⟨tick, -10, 10, 7, 1000, 5⟩

def idle : MonitorReads := ⟨none, none, none, false⟩

/-- Five minutes of samples and one completed cycle at the second before `now`. -/
def sampled (now : ℚ) (tick : ℤ) : MonitorStore where
  samples := recordPriceSample Table.empty (now - 296) tick 6
  cycles := [⟨some .upper, now - 1⟩]
  state := none
  status := .monitoring

theorem monitorPass_explained_cap :
    (monitorPass volatilityConfig (position 20) 90000 idle (sampled 90000 20)).exit = .parked .dailyCap ∧
      Explains (guardReportFor 6 volatilityConfig 90000 none (monitorPass volatilityConfig (position 20) 90000 idle (sampled 90000 20)).store)
        .dailyCap :=
  have parked : (monitorPass volatilityConfig (position 20) 90000 idle (sampled 90000 20)).exit = .parked .dailyCap := by decide +kernel
  ⟨parked, (monitorPass_explained 6 volatilityConfig (position 20) 90000 idle (sampled 90000 20) none (by norm_num)).1 .dailyCap parked trivial⟩

/-- A strategy parked for its volatility is reported without a time at which the wait ends. -/
theorem volatility_unreleased :
    let pass := monitorPass volatilityConfig (position 2) 90000 idle (sampled 90000 0)
    let report := guardReportFor 6 volatilityConfig 90000 none pass.store
    pass.exit = .parked (.market .marketVolatility) ∧
      ¬ (.marketVolatility ∈ report.blocking ∧
        ∃ condition ∈ report.conditions, condition.id = .marketVolatility ∧ ∃ release ∈ condition.waitUntil, 90000 ≤ release) := by
  decide +kernel

end LpTerminal.Monitor
