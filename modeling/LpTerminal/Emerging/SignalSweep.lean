import LpTerminal.Catalog.Rows
import LpTerminal.Emerging.BehaviorMetrics
import LpTerminal.Emerging.Streams
import Mathlib.Algebra.BigOperators.Ring.List
import Mathlib.Data.Rat.Floor
import Mathlib.Tactic.Positivity

/-!
The eight observation gates over the emerging tables, the evidence of a signal beyond them, and the signal pass over the admitted
pools. A candidate needs every gate to pass, and a bundle never does. A function that answers `none` has thrown.
-/

namespace LpTerminal.Emerging.Signals

export Catalog (Address)

/-- `chainId:venue:canonicalId`. -/
structure PoolKey where
  chainId : ℕ
  venue : Venue
  canonicalId : ℕ
deriving DecidableEq

/-- The text of a `BigInt`; `none` is a text that it rejects. -/
abbrev BigText := Option ℤ

/-- A field of a parsed payload: absent, of a type that its reader throws on, or read. -/
inductive Field (α : Type)
  | missing
  | rejected
  | read (value : α)

structure LedgerRow where
  poolKey : PoolKey
  venue : Venue
  canonicalId : ℕ
  baseToken : Option Address
  quoteIsUsdg : Bool
  poolCreatedAt : Option ℤ
  tokenCreatedAt : Option ℤ
  admittedRank : Option ℕ
  agedOut : Bool

inductive ReconcileStatus
  | matched
  | mismatch
  | reorgStale
deriving DecidableEq

structure SupplyRow where
  totalSupply : BigText
  balanceSum : BigText
  reconcileStatus : Option ReconcileStatus

structure CursorRow where
  chainId : ℕ
  active : Bool
  completeThroughTs : Option ℤ

structure SwapPayload where
  amount0 : Field ℤ
  amount1 : Field ℤ
  sqrtPriceX96 : Field ℤ
  /-- The empty text counts as missing. -/
  sender : Field Address
  recipient : Field Address

/-- The swap rows of `emerging_chain_events`. -/
structure SwapRow where
  poolKey : Option PoolKey
  blockNumber : ℕ
  txIndex : ℕ
  logIndex : ℕ
  blockTs : Option ℤ
  canonical : Bool
  /-- `none` when the text is no JSON object. -/
  payload : Option SwapPayload

structure MinuteRow where
  minuteTs : ℤ
  complete : Bool
  swapCount : ℤ
  /-- `CAST(vol_quote AS REAL)`. -/
  volQuote : Option ℚ
  closePrice : Option ℚ

structure ReductionState where
  startedAt : Option ℤ
  confirmedAt : Option ℤ
  invalidatedAt : Option ℤ

/-- What the gates and the signal pass read, but for the signal events. -/
structure Tables where
  ledger : List LedgerRow
  /-- `hooks` by pool id. -/
  v4Pools : ℕ → Option Address
  supply : Address → Option SupplyRow
  balances : Address → List (Address × BigText)
  /-- How many rows of `emerging_actor_evidence` name the token. -/
  roles : Address → ℕ
  cursors : List CursorRow
  swaps : List SwapRow
  minutes : PoolKey → Table MinuteRow.minuteTs
  /-- `emerging_reduction:<token>`; an inner `none` is a text that does not parse. -/
  reduction : Address → Option (Option ReductionState)

def emergingMaxAgeDays : ℤ := 7
def sourceStaleSeconds : ℤ := 180
def permissionStaleSeconds : ℤ := 300
def maxTop10Pct : ℚ := 3 / 10
def minSellTrades : ℕ := 5
def minSellActors : ℕ := 3

/-- The human review of a `TokenTemplate`. -/
structure Review where
  reviewer : String
  reviewedAt : ℤ

structure Config where
  chainId : ℕ
  /-- `CHAIN.addr.STABLE`. -/
  stable : Address
  policyVersion : ℕ
  venues : List Venue
  approvedQuotes : List Address
  /-- The template registry, empty as shipped. -/
  tokens : Address → Option Review
  /-- `Math.log` and `Math.sqrt`. -/
  log : ℚ → ℚ
  sqrt : ℚ → ℚ

/-- `EMERGING_POLICY`. -/
def shipped (chainId stable : ℕ) (log sqrt : ℚ → ℚ) : Config where
  chainId := chainId
  stable := stable
  policyVersion := 1
  venues := [.univ3, .up33cl, .univ4]
  approvedQuotes := [stable]
  tokens _ := none
  log := log
  sqrt := sqrt

def isApprovedQuote (config : Config) (token : Address) : Bool := token ∈ config.approvedQuotes

def DEFAULT_PROFILE_HASH : String := "research-100usdg-v1"

def researchProfile (hash : String) : Option ℕ := if hash = DEFAULT_PROFILE_HASH then some 100 else none

inductive GateStatus
  | pass
  | fail
  | unknown
deriving DecidableEq

structure GateResult where
  status : GateStatus
  reason : String
  availableAt : Option ℤ
  expiresAt : Option ℤ

/-- `gate` without the two times. -/
def undated (status : GateStatus) (reason : String) : GateResult := ⟨status, reason, none, none⟩

/-- `gate('unknown', reason, t)`. -/
def unknownAt (reason : String) (availableAt : Option ℤ) : GateResult := ⟨.unknown, reason, availableAt, none⟩

/-- `q.toFixed(4)`. -/
def toFixed4 (q : ℚ) : String :=
  let n := ⌊|q| * 10 ^ 4 + 1 / 2⌋.toNat
  let digits := toString (n % 10 ^ 4)
  (if q < 0 then "-" else "") ++ toString (n / 10 ^ 4) ++ "." ++ "".pushn '0' (4 - digits.length) ++ digits

section Gates

variable (config : Config) (db : Tables) (t : ℤ)

def g01Identity (row : LedgerRow) : GateResult :=
  if row.venue ∉ config.venues then undated .fail "venue_not_in_policy"
  else if !isApprovedQuote config config.stable then undated .fail "quote_registry_broken"
  else if row.baseToken = none then unknownAt "base_token_unproven" (some t)
  else if !isApprovedQuote config config.stable || !row.quoteIsUsdg then unknownAt "quote_pair_unproven" (some t)
  else
    match row.tokenCreatedAt <|> row.poolCreatedAt with
    | none => unknownAt "token_age_unknown" (some t)
    | some birth =>
      if t - birth ≥ emergingMaxAgeDays * 86400 then
        ⟨.fail, "token_not_young", some birth, some (birth + emergingMaxAgeDays * 86400)⟩
      else ⟨.pass, "identity_ok", some (max birth (t - sourceStaleSeconds)), some (birth + emergingMaxAgeDays * 86400)⟩

def g02TokenCapability (baseToken : Option Address) : GateResult :=
  match baseToken with
  | none => undated .unknown "base_token_unproven"
  | some token =>
    match config.tokens token with
    | none => undated .unknown "template_unreviewed"
    | some review => ⟨.pass, "template_reviewed:" ++ review.reviewer, some review.reviewedAt, none⟩

def feeHistory (completeThroughTs : Option ℤ) : GateResult :=
  let expires := some (completeThroughTs.getD 0 + sourceStaleSeconds * 10)
  if completeThroughTs.all fun through => t - through > sourceStaleSeconds * 10 then
    ⟨.unknown, "fee_history_stale", completeThroughTs, expires⟩
  else ⟨.pass, "static_fee_v3", completeThroughTs, expires⟩

def g03PoolHookFee (row : LedgerRow) (completeThroughTs : Option ℤ) : GateResult :=
  if row.venue ∉ config.venues then undated .fail "venue_not_in_policy"
  else
    match row.venue with
    | .univ4 =>
      match db.v4Pools row.canonicalId with
      | none => undated .unknown "pool_not_in_v4_directory"
      | some hooks => if hooks ≠ 0 then undated .fail "v4_hooked_pool" else feeHistory t completeThroughTs
    | .up33cl => undated .unknown "up33_fee_adapter_pending"
    | .univ3 => feeHistory t completeThroughTs

def g04ProtectedDepth : GateResult := undated .unknown "protected_depth_evidence_not_built"

def topBalances (baseToken : Address) : List (Address × BigText) :=
  ((db.balances baseToken).mergeSort fun a b => decide (b.2.getD 0 ≤ a.2.getD 0)).take 20

def top10 (baseToken : Address) : Option ℤ := do
  let nonSystem := ((topBalances db baseToken).filter fun r => r.1 ≠ baseToken ∧ r.1 ≠ 0).take 10
  return (← nonSystem.mapM Prod.snd).sum

def g05Concentration (baseToken : Address) : Option GateResult :=
  match db.supply baseToken with
  | none => some (unknownAt "holder_ledger_not_ready" (some t))
  | some sup =>
    if sup.reconcileStatus = some .reorgStale then some (unknownAt "holder_ledger_not_ready" (some t))
    else do
      let totalSupply ← sup.totalSupply
      if totalSupply = 0 then return unknownAt "supply_zero" (some t)
      let balanceSum ← sup.balanceSum
      if balanceSum ≠ totalSupply ∧ sup.reconcileStatus ≠ some .matched then
        return unknownAt "holder_ledger_incomplete" (some t)
      let share : ℚ := (← top10 db baseToken) / totalSupply
      if share ≥ maxTop10Pct then return ⟨.fail, "top10_share>=0.3", some t, none⟩
      return ⟨.pass, "top10_share=" ++ toFixed4 share, some t, some (t + permissionStaleSeconds)⟩

def g06InventoryReleased (baseToken : Option Address) : Option GateResult :=
  match baseToken with
  | none => some (undated .unknown "base_token_unproven")
  | some token =>
    if db.roles token = 0 then some (undated .unknown "issuer_roles_unmapped")
    else
      match db.reduction token with
      | none => some (undated .unknown "reduction_not_observed")
      | some raw => do
        let st ← raw
        if st.invalidatedAt ≠ none ∨ st.confirmedAt = none then return unknownAt "reduction_not_confirmed" st.invalidatedAt
        return ⟨.pass, "tracked_inventory_reduced", st.confirmedAt, none⟩

def g07ExitDepth : GateResult := undated .unknown "exit_depth_simulator_not_built"

def sellOf (canonicalId : ℕ) (swap : SwapRow) : Option (List (Option (Address × ℤ))) := do
  let p ← swap.payload
  match p.amount0, p.amount1 with
  | .missing, _ | _, .missing => return []
  | .rejected, _ => none
  | .read amount0, amount1 =>
    if amount0 ≤ 0 then return []
    match p.sender with
    | .rejected => none
    | .missing => return [none]
    | .read sender =>
      if sender = canonicalId then return [none]
      match amount1 with
      | .read amount1 => return [if amount1 = 0 then none else some (sender, |amount1|)]
      | _ => none

def recentSwaps (poolKey : PoolKey) : List SwapRow :=
  ((db.swaps.filter fun row => row.poolKey = some poolKey ∧ row.canonical).mergeSort fun a b =>
    decide (b.blockNumber ≤ a.blockNumber)).take 500

def g08SellEvidence (poolKey : PoolKey) (canonicalId entrySizeUsdg : ℕ) (completeThroughTs : Option ℤ) : Option GateResult :=
  if completeThroughTs.all fun through => t - through > sourceStaleSeconds * 10 then
    some (unknownAt "streams_stale" completeThroughTs)
  else do
    let sells := (← (recentSwaps db poolKey).mapM (sellOf canonicalId)).flatten
    let sold := sells.reduceOption
    let sellers := (sold.map Prod.fst).dedup
    let bigSell := sellers.any fun seller =>
      ((sold.filter fun s => s.1 = seller).map Prod.snd).sum ≥ (entrySizeUsdg : ℤ) * 10 ^ 6
    if sells.length ≥ minSellTrades ∧ sellers.length ≥ minSellActors ∧ bigSell then
      return ⟨.pass, s!"sells={sells.length},actors={sellers.length}", some t, some (t + sourceStaleSeconds * 10)⟩
    if sells.length < minSellTrades ∨ sellers.length < minSellActors then
      return unknownAt s!"sell_evidence_insufficient({sells.length}/{sellers.length})" (some t)
    return unknownAt "no_sell_covers_paper_size" (some t)

structure GateBundle where
  G01 : GateResult
  G02 : GateResult
  G03 : GateResult
  G04 : GateResult
  G05 : GateResult
  G06 : GateResult
  G07 : GateResult
  G08 : GateResult
  researchProfileHash : String
  policyVersion : String

def GateBundle.all (gates : GateBundle) : List GateResult :=
  [gates.G01, gates.G02, gates.G03, gates.G04, gates.G05, gates.G06, gates.G07, gates.G08]

def GateBundle.allPass (gates : GateBundle) : Bool := gates.all.all fun gate => gate.status = .pass

/-- `MAX(complete_through_ts)` over the active cursors. -/
def completeThrough : Option ℤ :=
  (db.cursors.filterMap fun row => if row.chainId = config.chainId ∧ row.active then row.completeThroughTs else none).max?

def concentrationOf (baseToken : Option Address) : Option GateResult :=
  match baseToken with
  | none => some (undated .unknown "base_token_unproven")
  | some token => g05Concentration db t token

def evaluateGates (poolKey : PoolKey) (profileHash : String) : Option GateBundle := do
  let entrySizeUsdg ← researchProfile profileHash
  let row ← db.ledger.find? fun row => row.poolKey = poolKey
  let through := completeThrough config db
  let G05 ← concentrationOf db t row.baseToken
  let G06 ← g06InventoryReleased db row.baseToken
  let G08 ← g08SellEvidence db t poolKey row.canonicalId entrySizeUsdg through
  return {
    G01 := g01Identity config t row
    G02 := g02TokenCapability config row.baseToken
    G03 := g03PoolHookFee config db t row through
    G04 := g04ProtectedDepth
    G05, G06
    G07 := g07ExitDepth
    G08
    researchProfileHash := profileHash
    policyVersion := toString config.policyVersion }

end Gates

variable {config : Config} {db : Tables} {t : ℤ} {poolKey : PoolKey} {profileHash : String} {gates : GateBundle}

theorem evaluateGates_unbuilt (evaluated : evaluateGates config db t poolKey profileHash = some gates) :
    gates.G04 = g04ProtectedDepth ∧ gates.G07 = g07ExitDepth := by
  simp only [evaluateGates, Option.bind_eq_bind, Option.bind_eq_some_iff, Option.pure_def, Option.some.injEq] at evaluated
  obtain ⟨_, _, _, _, _, _, _, _, _, _, rfl⟩ := evaluated
  exact ⟨rfl, rfl⟩

theorem allPass_status (passed : gates.allPass) {gate : GateResult} (member : gate ∈ gates.all) : gate.status = .pass := by
  have every := List.all_eq_true.mp passed gate member
  simpa using every

theorem evaluateGates_blocked (evaluated : evaluateGates config db t poolKey profileHash = some gates) :
    gates.allPass = false := by
  obtain ⟨depth, -⟩ := evaluateGates_unbuilt evaluated
  by_contra passes
  have passed : gates.G04.status = .pass := by
    apply allPass_status (by simpa using passes)
    simp [GateBundle.all]
  rw [depth] at passed
  cases passed

open Behavior (BehaviorTrade BehaviorAssessment)

def persistenceHours : ℕ := 12
def retentionRatioMin : ℚ := 5 / 10
def collapseRatio : ℚ := 35 / 100
def quietVolumeQuotePerHour : ℚ := 100
def priceBarMinutes : ℕ := 5
def stabilizationHours : ℕ := 6
def sigmaRatioMax : ℚ := 8 / 10
def reboundMin : ℚ := 5 / 100
def reboundSigmaMultiplier : ℚ := 2
def minReturnSamplesPerWindow : ℕ := 24

structure RetentionAssessment where
  pass : Bool
  reasons : List String
  aMean : ℚ
  bMean : ℚ
  latest : ℚ
  mMean : ℚ

/-- `v / m >= r`, where a zero `m` gives an infinity or no number. -/
def ratioAtLeast (v m r : ℚ) : Bool := if m = 0 then 0 < v else r ≤ v / m

/-- `v / m < r`. -/
def ratioBelow (v m r : ℚ) : Bool := if m = 0 then v < 0 else v / m < r

def assessRetention (hourlyQuoteVolume : List ℚ) (quietFloor : ℚ) : RetentionAssessment :=
  if hourlyQuoteVolume.length ≠ persistenceHours then ⟨false, ["need_12_complete_hours"], 0, 0, 0, 0⟩
  else
    let a := (hourlyQuoteVolume.take 6).sum / 6
    let b := (hourlyQuoteVolume.drop 6).sum / 6
    let v := hourlyQuoteVolume.getD (persistenceHours - 1) 0
    let m := (hourlyQuoteVolume.take (persistenceHours - 1)).sum / (persistenceHours - 1 : ℕ)
    let pass := 0 < a && retentionRatioMin ≤ b / a && ratioAtLeast v m collapseRatio && hourlyQuoteVolume.all (quietFloor ≤ ·)
    let reasons :=
      (if a ≤ 0 then ["A<=0"] else []) ++
      (if 0 < a ∧ b / a < retentionRatioMin then ["B/A<0.5"] else []) ++
      (if ratioBelow v m collapseRatio then ["V/M<0.35"] else []) ++
      (if hourlyQuoteVolume.any (· < quietFloor) then ["quiet_floor"] else [])
    ⟨pass, reasons, a, b, v, m⟩

structure PriceBar where
  close : ℚ
  hasVolume : Bool

structure StabilizationAssessment where
  pass : Bool
  reasons : List String
  sigmaA : ℚ
  sigmaB : ℚ
  /-- `none` is infinite. -/
  sigmaRatio : Option ℚ
  rebound : ℚ

section Stabilization

variable (config : Config)

def stdev (values : List ℚ) : ℚ :=
  if values.length < 2 then 0
  else
    let mean := values.sum / values.length
    config.sqrt ((values.map fun v => (v - mean) ^ 2).sum / (values.length - 1 : ℕ))

def logReturn (before bar : PriceBar) : Option ℚ :=
  if !bar.hasVolume || !before.hasVolume then none
  else if bar.close ≤ 0 ∨ before.close ≤ 0 then none
  else some (config.log (bar.close / before.close))

def logReturns (bars : List PriceBar) : List ℚ := (bars.zip bars.tail).filterMap fun pair => logReturn config pair.1 pair.2

def barsPerWindow : ℕ := stabilizationHours * 3600 / (priceBarMinutes * 60)

def half : ℕ := barsPerWindow / 2

def windows (returns : List ℚ) : List ℚ × List ℚ :=
  (returns.take half, if returns.length > half then returns.drop (returns.length - half) else [])

def assessStabilization (bars : List PriceBar) (anchorLow : ℚ) : StabilizationAssessment :=
  let winA := (windows (logReturns config bars)).1
  let winB := (windows (logReturns config bars)).2
  let sigmaA := stdev config winA
  let sigmaB := stdev config winB
  let ratio := if 0 < sigmaA then some (sigmaB / sigmaA) else none
  let lastClose := (bars.getLast?.map PriceBar.close).getD 0
  let rebound := if 0 < anchorLow then lastClose / anchorLow - 1 else -1
  let reboundNeed := max reboundMin (reboundSigmaMultiplier * sigmaB)
  let sampled : Bool := minReturnSamplesPerWindow ≤ winA.length && minReturnSamplesPerWindow ≤ winB.length
  let pass := sampled && 0 < sigmaA && ratio.any (· ≤ sigmaRatioMax) && reboundNeed ≤ rebound
  let reasons :=
    (if sampled then [] else ["returns<24"]) ++
    (if sigmaA ≤ 0 then ["sigmaA<=0"] else []) ++
    (if ratio.any (· ≤ sigmaRatioMax) then [] else ["sigmaB/sigmaA>0.8"]) ++
    (if rebound < reboundNeed then ["rebound<" ++ toFixed4 reboundNeed] else [])
  ⟨pass, reasons, sigmaA, sigmaB, ratio, rebound⟩

end Stabilization

section Reads

variable (db : Tables) (t : ℤ) (poolKey : PoolKey)

def emptyReduction : ReductionState := ⟨none, none, none⟩

def loadReduction (token : Address) : ReductionState := ((db.reduction token).getD none).getD emptyReduction

/-- `ORDER BY block_ts, tx_index, log_index`. -/
def eventOrder (a b : SwapRow) : Bool :=
  if a.blockTs ≠ b.blockTs then a.blockTs.getD 0 ≤ b.blockTs.getD 0
  else if a.txIndex ≠ b.txIndex then a.txIndex ≤ b.txIndex
  else a.logIndex ≤ b.logIndex

def swapsSince (since : ℤ) : List SwapRow :=
  (db.swaps.filter fun row => row.poolKey = some poolKey ∧ row.canonical ∧ row.blockTs.any (since ≤ ·)).mergeSort eventOrder

/-- The trade of a swap; an inner `none` is a gap. -/
def tradeOf (row : SwapRow) : Option (Option BehaviorTrade) := do
  let p ← row.payload
  match row.blockTs, p.amount0, p.amount1 with
  | none, _, _ | _, .missing, _ | _, _, .missing => return none
  | some ts, .read amount0, .read amount1 =>
    let trade (actor : Option Address) : BehaviorTrade :=
      { ts, actor
        volumeQuote := if amount0 < 0 then amount1 else -amount1
        direction := if amount0 < 0 then .buy else .sell }
    match p.recipient with
    | .rejected => none
    | .missing => return some (trade none)
    | .read recipient => return some (trade (if recipient = poolKey.canonicalId then none else some recipient))
  | _, _, _ => none

def behaviorOf : Option BehaviorAssessment := do
  let rows ← (swapsSince db poolKey (t - stabilizationHours * 3600)).mapM (tradeOf poolKey)
  return Behavior.assessBehavior rows.reduceOption (rows.any Option.isNone)

def priceBelowAnchor (anchorLow : Option ℚ) : Bool :=
  match anchorLow with
  | none => true
  | some anchorLow =>
    if anchorLow ≤ 0 then true
    else
      let closes := (db.minutes poolKey).rows.filterMap fun row => if row.complete then row.closePrice else none
      closes.getLast?.any (· < anchorLow)

/-- The square of `sqrtPriceX96 / 2^96`, where it is a price. -/
def impliedPrice (row : SwapRow) : Option (Option ℚ) := do
  let p ← row.payload
  match p.sqrtPriceX96 with
  | .missing => return none
  | .rejected => none
  | .read sqrtPriceX96 =>
    let sq : ℚ := (sqrtPriceX96 / 2 ^ 96) * (sqrtPriceX96 / 2 ^ 96)
    return if 0 < sq then some sq else none

def anchorLowFor (sinceTs : Option ℤ) : Option (Option ℚ) :=
  match sinceTs with
  | none => some none
  | some since => do
    let prices ← (swapsSince db poolKey since).mapM impliedPrice
    return prices.reduceOption.min?

/-- The complete buckets of `[since, t)`, by `minute_ts`. -/
def completeMinutes (since : ℤ) : List MinuteRow :=
  (db.minutes poolKey).rows.filter fun row => row.complete ∧ since ≤ row.minuteTs ∧ row.minuteTs < t

/-- `minute_ts / 3600 * 3600`. -/
def hourTs (row : MinuteRow) : ℤ := row.minuteTs.tdiv 3600 * 3600

/-- `SUM`, which skips the nulls. -/
def sumReal (values : List (Option ℚ)) : Option ℚ := if values.reduceOption = [] then none else some values.reduceOption.sum

/-- `hourlyQ`. -/
def hourRows : List (ℤ × Option ℚ) :=
  let rows := completeMinutes db t poolKey (t - (persistenceHours + 1) * 3600)
  (rows.map hourTs).dedup.map fun hour => (hour, sumReal ((rows.filter fun row => hourTs row = hour).map MinuteRow.volQuote))

/-- The volumes of `hourRows.slice(-12)`. -/
def hourlyQuoteVolume : List ℚ :=
  ((hourRows db t poolKey).drop ((hourRows db t poolKey).length - persistenceHours)).map fun r => r.2.getD 0

/-- `barsQ`, with a bar for each row. -/
def bars : List PriceBar :=
  (completeMinutes db t poolKey (t - stabilizationHours * 3600)).map fun b => ⟨b.closePrice.getD 0, 0 < b.swapCount⟩

end Reads

open Behavior (BehaviorAssessment)

inductive SignalState
  | watchCandidate
  | invalidated
deriving DecidableEq

inductive Metrics
  | reason (reason : String)
  | evidence (behavior : BehaviorAssessment) (retention : RetentionAssessment) (sigmaRatio : Option ℚ) (rebound : ℚ)

/-- The arguments of `recordSignal`; the profile is the default one. -/
structure Decision where
  poolKey : PoolKey
  state : SignalState
  anchorLow : Option ℚ
  metrics : Metrics
  gates : GateBundle

/-- `poolKey:profileHash:decisionAt:seq`. -/
structure SignalId where
  poolKey : PoolKey
  profileHash : String
  decisionAt : ℤ
  seq : ℕ
deriving DecidableEq

structure SignalRow where
  signalId : SignalId
  poolKey : PoolKey
  researchProfileHash : String
  state : SignalState
  decisionAt : ℤ
  anchorLow : Option ℚ
  metrics : Metrics
  gates : GateBundle
  thresholdVersion : String
  policyVersion : String

/-- `emerging_signal_events`, with its primary key. -/
structure SignalEvents where
  rows : List SignalRow
  unique : (rows.map SignalRow.signalId).Nodup

structure Db extends Tables where
  signals : SignalEvents
  /-- `emerging_signal_seq`. -/
  signalSeq : ℕ

/-- Whether `a` is before `b` by decision time and then by id, the ids of a pool compared by the texts of their numbers. -/
def SignalRow.olderThan (a b : SignalRow) : Bool :=
  if a.decisionAt ≠ b.decisionAt then a.decisionAt < b.decisionAt else toString a.signalId.seq < toString b.signalId.seq

def latestSignal (signals : SignalEvents) (poolKey : PoolKey) (profileHash : String) : Option SignalRow :=
  (signals.rows.filter fun row => row.poolKey = poolKey ∧ row.researchProfileHash = profileHash).foldl
    (fun last row => if last.all (·.olderThan row) then some row else last) none

section Pass

variable (config : Config) (t : ℤ)

def invalidation (db : Tables) (poolKey : PoolKey) (anchorLow : Option ℚ) (gates : GateBundle) : Option (Option Decision) := do
  let recorded (reason : String) : Decision := ⟨poolKey, .invalidated, anchorLow, .reason reason, gates⟩
  let below := priceBelowAnchor db poolKey anchorLow
  if !gates.allPass then return some (recorded "gates")
  let behavior ← behaviorOf db t poolKey
  if behavior.riskClass ≠ .lowObserved ∨ below then return some (recorded (if below then "below_anchor" else "behavior"))
  return none

/-- The branch of the other pools, past the gates: `none` inside where the evidence stops short. -/
def candidacy (db : Tables) (poolKey : PoolKey) (baseToken : Option Address) (gates : GateBundle) : Option (Option Decision) := do
  let some token := baseToken | return none
  let reduction := loadReduction db token
  if reduction.confirmedAt = none then return none
  let behavior ← behaviorOf db t poolKey
  if behavior.riskClass ≠ .lowObserved then return none
  if (hourRows db t poolKey).length < persistenceHours then return none
  let retention := assessRetention (hourlyQuoteVolume db t poolKey) quietVolumeQuotePerHour
  if !retention.pass then return none
  let some anchorLow ← anchorLowFor db poolKey reduction.startedAt | return none
  let stab := assessStabilization config (bars db t poolKey) anchorLow
  if !stab.pass then return none
  return some ⟨poolKey, .watchCandidate, some anchorLow, .evidence behavior retention stab.sigmaRatio stab.rebound, gates⟩

def evaluatePool (db : Db) (pool : LedgerRow) : Option (Option Decision) := do
  let latest := latestSignal db.signals pool.poolKey DEFAULT_PROFILE_HASH
  let currentlyCandidate := latest.any fun last => last.state = .watchCandidate
  let gates ← evaluateGates config db.toTables t pool.poolKey DEFAULT_PROFILE_HASH
  if currentlyCandidate then invalidation t db.toTables pool.poolKey (latest.bind SignalRow.anchorLow) gates
  else if !gates.allPass then return none
  else candidacy config t db.toTables pool.poolKey pool.baseToken gates

def signalRow (seq : ℕ) (d : Decision) : SignalRow where
  signalId := ⟨d.poolKey, DEFAULT_PROFILE_HASH, t, seq⟩
  poolKey := d.poolKey
  researchProfileHash := DEFAULT_PROFILE_HASH
  state := d.state
  decisionAt := t
  anchorLow := d.anchorLow
  metrics := d.metrics
  gates := d.gates
  thresholdVersion := "1"
  policyVersion := toString config.policyVersion

/-- `none` where the id is taken. -/
def SignalEvents.insert (signals : SignalEvents) (row : SignalRow) : Option SignalEvents :=
  if taken : row.signalId ∈ signals.rows.map SignalRow.signalId then none
  else
    some {
      rows := signals.rows ++ [row]
      unique := by
        rw [List.map_append]
        exact signals.unique.append (List.nodup_singleton _) (List.disjoint_singleton.mpr taken) }

def recordSignal (db : Db) (d : Decision) : Db × Bool :=
  let db := { db with signalSeq := db.signalSeq + 1 }
  match db.signals.insert (signalRow config t db.signalSeq d) with
  | none => (db, false)
  | some signals => ({ db with signals }, true)

structure Counters where
  pools : ℕ
  candidates : ℕ
  invalidated : ℕ

def Counters.count (c : Counters) : SignalState → Counters
  | .watchCandidate => { c with pools := c.pools + 1, candidates := c.candidates + 1 }
  | .invalidated => { c with pools := c.pools + 1, invalidated := c.invalidated + 1 }

def sweepPools : List LedgerRow → Db → Counters → Db × Option Counters
  | [], db, c => (db, some c)
  | pool :: rest, db, c =>
    match evaluatePool config t db pool with
    | none => (db, none)
    | some none => sweepPools rest db { c with pools := c.pools + 1 }
    | some (some d) =>
      match recordSignal config t db d with
      | (db, false) => (db, none)
      | (db, true) => sweepPools rest db (c.count d.state)

def activePools (db : Tables) : List LedgerRow := db.ledger.filter fun row => row.admittedRank.isSome && !row.agedOut

def runEmergingSignalSweep (db : Db) : Db × Option Counters := sweepPools config t (activePools db.toTables) db ⟨0, 0, 0⟩

end Pass

variable {config : Config} {t : ℤ} {db : Db} {tables : Tables} {pool : LedgerRow} {poolKey : PoolKey} {baseToken : Option Address}
  {gates : GateBundle} {anchorLow : Option ℚ} {d : Decision} {row : SignalRow}

theorem invalidation_state (recorded : invalidation t tables poolKey anchorLow gates = some (some d)) :
    d.state = .invalidated := by
  simp only [invalidation, Option.bind_eq_bind, Option.pure_def] at recorded
  split at recorded
  · cases recorded
    rfl
  · obtain ⟨behavior, -, recorded⟩ := Option.bind_eq_some_iff.mp recorded
    split at recorded
    · cases recorded
      rfl
    · cases recorded

theorem evaluatePool_state (recorded : evaluatePool config t db pool = some (some d)) : d.state = .invalidated := by
  simp only [evaluatePool, Option.bind_eq_bind, Option.pure_def] at recorded
  obtain ⟨gates, evaluated, recorded⟩ := Option.bind_eq_some_iff.mp recorded
  rw [evaluateGates_blocked evaluated] at recorded
  split at recorded
  · exact invalidation_state recorded
  · cases recorded

theorem insert_rows {signals inserted : SignalEvents} (fits : signals.insert row = some inserted) :
    inserted.rows = signals.rows ++ [row] := by
  unfold SignalEvents.insert at fits
  split at fits
  · cases fits
  · cases fits
    rfl

theorem recordSignal_rows (member : row ∈ (recordSignal config t db d).1.signals.rows) :
    row ∈ db.signals.rows ∨ row.state = d.state := by
  unfold recordSignal at member
  dsimp only at member
  split at member
  · exact Or.inl member
  · rename_i signals fits
    rw [insert_rows fits] at member
    rcases List.mem_append.mp member with old | new
    · exact Or.inl old
    · rw [List.mem_singleton.mp new]
      exact Or.inr rfl

theorem sweepPools_rows (pools : List LedgerRow) {db : Db} {c : Counters}
    (member : row ∈ (sweepPools config t pools db c).1.signals.rows) : row ∈ db.signals.rows ∨ row.state = .invalidated := by
  induction pools generalizing db c with
  | nil => exact Or.inl member
  | cons pool rest ih =>
    unfold sweepPools at member
    split at member
    · exact Or.inl member
    · exact ih member
    · rename_i d decided
      have state := evaluatePool_state decided
      have kept := @recordSignal_rows config t db d row
      rw [state] at kept
      split at member <;> rename_i after returned <;> rw [returned] at kept
      · exact kept member
      · rcases ih member with recorded | invalidated
        · exact kept recorded
        · exact Or.inr invalidated

structure Qualified (config : Config) (t : ℤ) (db : Tables) (poolKey : PoolKey) (baseToken : Option Address) (low : ℚ) :
    Prop where
  confirmed : ∃ token, baseToken = some token ∧ (loadReduction db token).confirmedAt ≠ none
  behavior : ∃ behavior, behaviorOf db t poolKey = some behavior ∧ behavior.riskClass = .lowObserved
  hours : persistenceHours ≤ (hourRows db t poolKey).length
  retention : (assessRetention (hourlyQuoteVolume db t poolKey) quietVolumeQuotePerHour).pass
  stabilization : (assessStabilization config (bars db t poolKey) low).pass

/-- Sixty complete buckets from `hour` on. -/
def CompleteHour (db : Tables) (poolKey : PoolKey) (hour : ℤ) : Prop :=
  ∀ i < 60, ∃ row ∈ (db.minutes poolKey).rows, row.complete ∧ row.minuteTs = hour + 60 * (i : ℕ)

def usdgVolume (db : Tables) (poolKey : PoolKey) (hour : ℤ) : ℚ :=
  (((db.minutes poolKey).rows.filter fun row => row.complete ∧ hour ≤ row.minuteTs ∧ row.minuteTs < hour + 3600).map fun row =>
    row.volQuote.getD 0).sum / 10 ^ 6

/-- The closes of the five-minute slots of six hours from `start` on. -/
def fiveMinuteBars (db : Tables) (poolKey : PoolKey) (start : ℤ) : List PriceBar :=
  (List.range barsPerWindow).map fun k : ℕ =>
    let rows := (db.minutes poolKey).rows.filter fun row =>
      row.complete ∧ start + 300 * k ≤ row.minuteTs ∧ row.minuteTs < start + 300 * (k + 1)
    ⟨(rows.getLast?.bind MinuteRow.closePrice).getD 0, rows.any fun row => 0 < row.swapCount⟩

structure CandidateEvidence (config : Config) (db : Tables) (t : ℤ) (poolKey : PoolKey) : Prop where
  /-- Twelve complete hours in a row after the confirmation, whose volumes pass. -/
  retained : ∃ pool ∈ db.ledger, ∃ token confirmedAt hour, pool.poolKey = poolKey ∧ pool.baseToken = some token ∧
    (loadReduction db token).confirmedAt = some confirmedAt ∧ confirmedAt ≤ hour ∧ 3600 ∣ hour ∧ hour + 12 * 3600 ≤ t ∧
    (∀ i < 12, CompleteHour db poolKey (hour + 3600 * (i : ℕ))) ∧
    (assessRetention ((List.range 12).map fun i : ℕ => usdgVolume db poolKey (hour + 3600 * i)) quietVolumeQuotePerHour).pass
  /-- Closes of the last seventy-two slots, so that the windows are the returns of the first and the last three hours. -/
  stabilized : ∃ start, t - 6 * 3600 - 300 < start ∧ start ≤ t - 6 * 3600 ∧ bars db t poolKey = fiveMinuteBars db poolKey start ∧
    (windows (logReturns config (bars db t poolKey))).1 = logReturns config ((bars db t poolKey).take 37) ∧
    (windows (logReturns config (bars db t poolKey))).2 = logReturns config ((bars db t poolKey).drop 35)

def CandidatesHaveEvidence (config : Config) (db : Db) (t : ℤ) : Prop :=
  ∀ row ∈ (runEmergingSignalSweep config t db).1.signals.rows, row ∉ db.signals.rows → row.state = .watchCandidate →
    CandidateEvidence config db.toTables t row.poolKey

/-- The rule holds of every pass since none appends a candidate. -/
theorem candidates_have_evidence (config : Config) (db : Db) (t : ℤ) : CandidatesHaveEvidence config db t := by
  intro row member fresh candidate
  rcases sweepPools_rows _ member with old | invalidated
  · exact absurd old fresh
  · rw [invalidated] at candidate
    cases candidate

end LpTerminal.Emerging.Signals
