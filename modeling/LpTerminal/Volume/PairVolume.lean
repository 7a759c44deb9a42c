import LpTerminal.Catalog.Rows
import LpTerminal.Lib.InsertionMap
import Mathlib.Algebra.Order.Field.Rat
import Mathlib.Algebra.Order.Ring.NNRat

/-!
The families of pools that trade one pair of tokens, with their daily volumes and shares.
-/

namespace LpTerminal.Volume

open Catalog (PoolProto)
export Catalog (Address)

/-- A `bytes32`, which no address is equal to. -/
abbrev PoolId := Nat

inductive Identity
  | address (address : Address)
  | poolId (id : PoolId)
deriving DecidableEq

inductive MemberProto
  | up33Cl
  | univ3
  | univ4

def zeroAddress : Address := 0

def DAY_SECONDS : Int := 86400

def WINDOW_DAYS : Nat := 45

def MAX_FAMILIES : Nat := 200

def SNAPSHOT_MIN_DAYS : Nat := 5

def SNAPSHOT_MIN_LAST_DAY_USD : NNRat := 10000

def NEWCOMER_AGE_DAYS : Nat := 14

def NEWCOMER_SHARE_STEP : Rat := 5 / 100

def NEWCOMER_MIN_DAY_USD : NNRat := 1000

abbrev PairKey := Address × Address

def pairKeyOf (a b : Address) : PairKey := if a < b then (a, b) else (b, a)

structure Chain where
  WNATIVE : Address

def canonicalCurrency (chain : Chain) (currency : Address) : Address :=
  if currency = zeroAddress then chain.WNATIVE else currency

def pairKeyFromCurrencies (chain : Chain) (c0 c1 : Address) : PairKey :=
  pairKeyOf (canonicalCurrency chain c0) (canonicalCurrency chain c1)

def dayStartSec (ts : Int) : Int := ts / DAY_SECONDS * DAY_SECONDS

def normalizeDay (date : Int) : Int :=
  if date > 10000000000 then date else if date > 10000000 then dayStartSec date else date * DAY_SECONDS

def windowDays (today : Int) : List Int := (List.range WINDOW_DAYS).map fun i => today - ((WINDOW_DAYS - i : Nat) : Int) * DAY_SECONDS

def fullDay (today ts : Int) : Option Int :=
  let day := dayStartSec (normalizeDay ts)
  if day < today ∧ day ∈ windowDays today then some day else none

/-- Volumes that passed a `vol > 0` or a `vol >= 0`. -/
abbrev Series := InsertionMap Int NNRat

def Series.note (series : Series) (day : Option Int) (vol : Option Rat) : Series :=
  match day, vol with
  | some day, some vol => if positive : 0 < vol then InsertionMap.set series day ⟨vol, positive.le⟩ else series
  | _, _ => series

/-- `[...series.values()].at(-1) ?? 0`. -/
def Series.last (series : Series) : NNRat := (InsertionMap.values series).getLast?.getD 0

structure Sample where
  ts : Int
  vol24h : Rat

def dailyFromDayEndSamples (samples : List Sample) : List (Int × NNRat) :=
  let lastByDay : InsertionMap Int Sample :=
    samples.foldl (fun lastByDay s => if s.vol24h < 0 then lastByDay else lastByDay.set (s.ts / 86400 * 86400) s) .empty
  let days := (lastByDay.entries.map Prod.fst).mergeSort fun a b => a ≤ b
  (days.zip days.tail).filterMap fun (before, day) =>
    match lastByDay.get? before, lastByDay.get? day with
    | some a, some b =>
      if day - before ≠ 86400 then none
      else if measured : 0 ≤ b.vol24h - a.vol24h then some (day, ⟨b.vol24h - a.vol24h, measured⟩) else none
    | _, _ => none

def finitePos (v : Option NNRat) : Option NNRat := v.filter fun vol => 0 < vol

def reported (vols : List (List (Option NNRat))) (i : Nat) : List NNRat := vols.filterMap fun series => finitePos (series.getD i none)

def longest (vols : List (List (Option NNRat))) : Nat := (vols.map List.length).foldr max 0

def pairTotals (vols : List (List (Option NNRat))) : List (Option NNRat) :=
  (List.range (longest vols)).map fun i => if reported vols i = [] then none else some (reported vols i).sum

def sharesOf (vols : List (List (Option NNRat))) (series : List (Option NNRat)) : List (Option NNRat) :=
  (List.range (longest vols)).map fun i =>
    let total := (reported vols i).sum
    if 0 < total then (finitePos (series.getD i none)).map (· / total) else none

def pairShares (vols : List (List (Option NNRat))) : List (List (Option NNRat)) := vols.map (sharesOf vols)

structure TokenRef where
  id : Address
  symbol : String

structure DayData where
  date : Int
  /-- `Number(day.volumeUSD)` where it is finite. -/
  volumeUSD : Option Rat

structure SubgraphPoolLite where
  id : Address
  tickSpacing : Int
  /-- `Number(pool.totalValueLockedUSD)` where it is a number. -/
  totalValueLockedUSD : Option Rat
  token0 : TokenRef
  token1 : TokenRef
  poolDayData : List DayData

structure Up33OnchainLite where
  feePpm : Option Nat
  rewardRateWeiPerSec : Option Nat

structure Univ3CandidateLite where
  name : String
  address : Address
  tvlUsd : Rat
  token0 : Option Address
  token1 : Option Address

structure Candle where
  ts : Int
  vol : Rat

/-- A pool's address is listed once, and its tokens are contracts. -/
structure Input where
  subgraphPools : List SubgraphPoolLite
  onchain : Address → Option Up33OnchainLite
  univ3Candidates : List Univ3CandidateLite
  univ3Candles : Address → Option (List Candle)
  rankedIdentities : Identity → Bool
  nowTs : Int
  apart : (subgraphPools.map (·.id) ++ univ3Candidates.map (·.address)).Nodup
  subgraphTokens : ∀ pool ∈ subgraphPools, pool.token0.id ≠ zeroAddress ∧ pool.token1.id ≠ zeroAddress
  candidateTokens : ∀ candidate ∈ univ3Candidates, candidate.token0 ≠ some zeroAddress ∧ candidate.token1 ≠ some zeroAddress

structure TokenRow where
  symbol : String
  price_usd : Option Rat

structure V4MemberRow where
  pool_id : PoolId
  currency0 : Address
  currency1 : Address
  key_fee_ppm : Option Nat
  tick_spacing : Int

def V4MemberRow.pairKey (chain : Chain) (row : V4MemberRow) : PairKey := pairKeyFromCurrencies chain row.currency0 row.currency1

structure V4PoolDay where
  date : Int
  volume0 : Option Rat
  volume1 : Option Rat

structure MarketStats where
  tvl_usd : Option Rat
  liq_usd : Option Rat

structure PoolRow where
  address : Address
  proto : PoolProto
  token0 : Address
  token1 : Address
  fee_ppm : Nat
  tick_spacing : Option Int

structure MarketSnapshot where
  ts : Int
  vol24h_usd : Option Rat

/-- The PoolManager takes no key but one with sorted currencies, and both writers of the directory check it. -/
structure Store where
  tokens : Address → Option TokenRow
  v4_pools : Table V4MemberRow.pool_id
  v4_pool_days : PoolId → List V4PoolDay
  v4_market_stats : PoolId → Option MarketStats
  pools : Table PoolRow.address
  /-- `tvl_usd` of the pool's `pool_state`. -/
  pool_state : Address → Option Rat
  /-- `liq_usd` of the pool's `pool_stats`. -/
  pool_stats : Address → Option Rat
  pool_market_snapshots : Address → List MarketSnapshot
  sorted : ∀ row ∈ v4_pools.rows, row.currency0 < row.currency1

structure MemberSeed where
  identity : Identity
  proto : MemberProto
  feeBps : Option Rat
  tickSpacing : Option Int
  tvlUsd : Option Rat
  gaugeAlive : Bool
  series : Series
  ageDays : Nat

structure FamilySeed where
  pairKey : PairKey
  token0 : Address
  token1 : Address
  symbol0 : String
  symbol1 : String
  members : List MemberSeed

abbrev Families := InsertionMap PairKey FamilySeed

structure Placement where
  token0 : Address
  token1 : Address
  symbol0 : String
  symbol1 : String
  seed : MemberSeed

def Placement.pairKey (p : Placement) : PairKey := pairKeyOf p.token0 p.token1

def familyFor (families : Families) (t0 t1 : Address) (s0 s1 : String) : FamilySeed :=
  (families.get? (pairKeyOf t0 t1)).getD ⟨pairKeyOf t0 t1, t0, t1, s0, s1, []⟩

def FamilySeed.push (family : FamilySeed) (seed : MemberSeed) : FamilySeed := { family with members := family.members ++ [seed] }

/-- `familyFor(…).members.push(…)`. -/
def Placement.into (families : Families) (p : Placement) : Families :=
  families.set p.pairKey ((familyFor families p.token0 p.token1 p.symbol0 p.symbol1).push p.seed)

/-- `value || null`. -/
def nonzero (value : Option Rat) : Option Rat := value.filter fun v => v ≠ 0

def bps (feePpm : Nat) : Rat := feePpm / 100

def up33Placement (input : Input) (pool : SubgraphPoolLite) : Placement where
  token0 := pool.token0.id
  token1 := pool.token1.id
  symbol0 := pool.token0.symbol
  symbol1 := pool.token1.symbol
  seed :=
    { identity := .address pool.id
      proto := .up33Cl
      feeBps := ((input.onchain pool.id).bind (·.feePpm)).map bps
      tickSpacing := some pool.tickSpacing
      tvlUsd := nonzero pool.totalValueLockedUSD
      gaugeAlive := ((input.onchain pool.id).bind (·.rewardRateWeiPerSec)).isSome
      series := pool.poolDayData.foldl (fun series day => series.note (fullDay (dayStartSec input.nowTs) day.date) day.volumeUSD) .empty
      ageDays := pool.poolDayData.length - 1 }

/-- The parts of a name such as `WETH / FOO (0.3%)`. -/
def symbolsFromGtName (name : String) : String × String :=
  let head := (name.splitOn "(").headD name
  let parts := ((head.splitOn "/").map fun s => s.trimAscii.toString).filter (· ≠ "")
  (parts.getD 0 "?", parts.getD 1 "?")

/-- `Number` of a text of digits and points. -/
def numberOf (text : List Char) : Option Rat :=
  let digits (text : List Char) : Nat := text.foldl (fun n c => 10 * n + (c.toNat - '0'.toNat)) 0
  match text.splitOn '.' with
  | [[]] => none
  | [whole] => some (digits whole)
  | [[], []] => none
  | [whole, part] => some (digits (whole ++ part) / 10 ^ part.length)
  | _ => none

def percentText : List Char → Option (List Char)
  | [] => none
  | c :: rest =>
    let run := (c :: rest).takeWhile fun c => c.isDigit || c == '.'
    if run ≠ [] ∧ ((c :: rest).drop run.length).head? = some '%' then some run else percentText rest

def feeBpsFromGtName (name : String) : Option Rat := ((percentText name.toList).bind numberOf).map (· * 100)

def univ3Placement (input : Input) (candidate : Univ3CandidateLite) : Option Placement :=
  match candidate.token0, candidate.token1, input.univ3Candles candidate.address with
  | some token0, some token1, some (first :: more) =>
    let series : Series :=
      (first :: more).foldl (fun series candle => series.note (fullDay (dayStartSec input.nowTs) candle.ts) (some candle.vol)) .empty
    some
      { token0
        token1
        symbol0 := (symbolsFromGtName candidate.name).1
        symbol1 := (symbolsFromGtName candidate.name).2
        seed :=
          { identity := .address candidate.address
            proto := .univ3
            feeBps := feeBpsFromGtName candidate.name
            tickSpacing := none
            tvlUsd := some candidate.tvlUsd
            gaugeAlive := false
            series
            ageDays := series.size } }
  | _, _, _ => none

def seedPlacements (input : Input) : List Placement :=
  input.subgraphPools.map (up33Placement input) ++ input.univ3Candidates.filterMap (univ3Placement input)

def v4MembersForKeys (store : Store) (keys : List PairKey) : List V4MemberRow :=
  keys.flatMap fun (a, b) =>
    store.v4_pools.rows.filter (fun row => row.currency0 = a ∧ row.currency1 = b) ++
      store.v4_pools.rows.filter (fun row => row.currency0 = b ∧ row.currency1 = a)

def Store.priceOf (store : Store) (currency : Address) : Option Rat := (store.tokens currency).bind (·.price_usd)

def v4Volume (p0 p1 : Option Rat) (day : V4PoolDay) : Option Rat :=
  let leg (price volume : Option Rat) : List Rat := (price.bind fun p => volume.map (· * p)).toList
  let legs := leg p0 day.volume0 ++ leg p1 day.volume1
  if legs = [] then none else some (legs.sum / legs.length)

def v4Series (store : Store) (price : Address → Option Rat) (nowTs : Int) (row : V4MemberRow) : Series :=
  (store.v4_pool_days row.pool_id).foldl
    (fun series day => series.note (fullDay (dayStartSec nowTs) day.date)
      (v4Volume (price row.currency0) (price row.currency1) day)) .empty

def v4PricedDays (store : Store) (nowTs : Int) (row : V4MemberRow) : Nat :=
  (store.v4_pool_days row.pool_id).countP fun day => (fullDay (dayStartSec nowTs) day.date).isSome &&
    (v4Volume (store.priceOf row.currency0) (store.priceOf row.currency1) day).isSome

def v4Seed (input : Input) (store : Store) (row : V4MemberRow) : MemberSeed where
  identity := .poolId row.pool_id
  proto := .univ4
  feeBps := row.key_fee_ppm.map bps
  tickSpacing := some row.tick_spacing
  tvlUsd := (store.v4_market_stats row.pool_id).bind fun stats => stats.tvl_usd <|> stats.liq_usd
  gaugeAlive := false
  series := v4Series store store.priceOf input.nowTs row
  ageDays := v4PricedDays store input.nowTs row

def v4Into (chain : Chain) (input : Input) (store : Store) (families : Families) (row : V4MemberRow) : Families :=
  match families.get? (row.pairKey chain) with
  | none => families
  | some family => families.set (row.pairKey chain) (family.push (v4Seed input store row))

def FamilySeed.ranked (input : Input) (family : FamilySeed) : Bool := family.members.any fun m => input.rankedIdentities m.identity

def v4Leg (chain : Chain) (input : Input) (store : Store) (families : Families) : Families :=
  let keptCandidates := (families.values.filter (·.ranked input)).map (·.pairKey)
  (v4MembersForKeys store keptCandidates).foldl (v4Into chain input store) families

/-- `COALESCE(s.tvl_usd, st.liq_usd, 0)`. -/
def Store.tvl (store : Store) (address : Address) : Rat := (store.pool_state address <|> store.pool_stats address).getD 0

def topPools (store : Store) : List PoolRow :=
  ((store.pools.rows.filter fun p => (p.proto = .univ3 ∨ p.proto = .pancakev3) ∧ 10000 ≤ store.tvl p.address).mergeSort
    fun a b => store.tvl b.address ≤ store.tvl a.address).take 150

def snapshotRawVolumes (store : Store) (pool : Address) (sinceTs : Int) : List Sample :=
  (((store.pool_market_snapshots pool).filter fun s => sinceTs ≤ s.ts).filterMap fun s => s.vol24h_usd.map fun vol => ⟨s.ts, vol⟩).mergeSort
    fun a b => a.ts ≤ b.ts

def snapshotDaily (input : Input) (store : Store) (row : PoolRow) : List (Int × NNRat) :=
  dailyFromDayEndSamples (snapshotRawVolumes store row.address (input.nowTs - (WINDOW_DAYS + 1 : Nat) * DAY_SECONDS))

def Store.symbolOf (store : Store) (token : Address) : String := ((store.tokens token).map (·.symbol)).getD "?"

def snapshotPlacement (input : Input) (store : Store) (row : PoolRow) : Placement :=
  let series : Series := (snapshotDaily input store row).foldl (fun series d => InsertionMap.set series d.1 d.2) .empty
  { token0 := row.token0
    token1 := row.token1
    symbol0 := store.symbolOf row.token0
    symbol1 := store.symbolOf row.token1
    seed :=
      { identity := .address row.address
        proto := .univ3
        feeBps := some (bps row.fee_ppm)
        tickSpacing := row.tick_spacing
        tvlUsd := nonzero (some (store.tvl row.address))
        gaugeAlive := false
        series
        ageDays := series.size } }

def snapshotPlacements (input : Input) (store : Store) (seeded : List Identity) : List PoolRow → List Placement
  | [] => []
  | row :: rest =>
    if .address row.address ∈ seeded then snapshotPlacements input store seeded rest
    else if (snapshotDaily input store row).length < SNAPSHOT_MIN_DAYS then snapshotPlacements input store seeded rest
    else snapshotPlacement input store row :: snapshotPlacements input store (.address row.address :: seeded) rest

def Families.seeded (families : Families) : List Identity := (InsertionMap.values families).flatMap fun f => f.members.map (·.identity)

def snapshotLeg (input : Input) (store : Store) (families : Families) : Families :=
  (snapshotPlacements input store families.seeded (topPools store)).foldl Placement.into families

def families (chain : Chain) (input : Input) (store : Store) : Families :=
  snapshotLeg input store (v4Leg chain input store ((seedPlacements input).foldl Placement.into .empty))

structure PairVolumeMember where
  identity : Identity
  proto : MemberProto
  feeBps : Option Rat
  tickSpacing : Option Int
  tvlUsd : Option Rat
  gaugeAlive : Bool
  dailyVol : List (Option NNRat)
  share : List (Option NNRat)
  ageDaysLowerBound : Nat
  isNewcomer : Bool
  usdCoverage : Rat

structure PairVolumePayload where
  pairKey : PairKey
  token0 : Address
  token1 : Address
  symbol0 : String
  symbol1 : String
  days : List Int
  pairTotal : List (Option NNRat)
  pools : List PairVolumeMember

structure PairVolumeSnapshot where
  generatedAt : Int
  windowDays : Nat
  pairs : InsertionMap PairKey PairVolumePayload
  byPool : InsertionMap Identity PairKey

def MemberSeed.qualifies (input : Input) (m : MemberSeed) : Bool :=
  input.rankedIdentities m.identity || (SNAPSHOT_MIN_DAYS ≤ m.series.size && SNAPSHOT_MIN_LAST_DAY_USD ≤ m.series.last)

def FamilySeed.last (f : FamilySeed) : NNRat := (f.members.map (·.series.last)).foldl max 0

def keptFamilies (chain : Chain) (input : Input) (store : Store) : List FamilySeed :=
  (((families chain input store).values.filter fun f => f.members.any (·.qualifies input)).mergeSort fun a b => b.last ≤ a.last).take
    MAX_FAMILIES

def align (today : Int) (series : Series) : List (Option NNRat) := (windowDays today).map series.get?

def isNewcomer (m : MemberSeed) (dailyVol share : List (Option NNRat)) : Bool :=
  m.ageDays < NEWCOMER_AGE_DAYS &&
    match share.getD (WINDOW_DAYS - 1) none, share.getD (WINDOW_DAYS - 2) none, dailyVol.getD (WINDOW_DAYS - 1) none with
    | some lastShare, some prevShare, some volLastDay =>
      NEWCOMER_SHARE_STEP ≤ (lastShare : Rat) - prevShare && NEWCOMER_MIN_DAY_USD ≤ volLastDay
    | _, _, _ => false

/-- `Math.round(x * 100) / 100`. -/
def hundredths (x : Rat) : Rat := (x * 100 + 1 / 2).floor / 100

def memberOf (m : MemberSeed) (dailyVol share : List (Option NNRat)) : PairVolumeMember where
  identity := m.identity
  proto := m.proto
  feeBps := m.feeBps
  tickSpacing := m.tickSpacing
  tvlUsd := m.tvlUsd
  gaugeAlive := m.gaugeAlive
  dailyVol
  share
  ageDaysLowerBound := m.ageDays
  isNewcomer := isNewcomer m dailyVol share
  usdCoverage := hundredths ((dailyVol.countP Option.isSome : Nat) / (WINDOW_DAYS : Nat))

def payloadOf (today : Int) (f : FamilySeed) : PairVolumePayload :=
  let aligned := f.members.map fun m => align today m.series
  { pairKey := f.pairKey
    token0 := f.token0
    token1 := f.token1
    symbol0 := f.symbol0
    symbol1 := f.symbol1
    days := windowDays today
    pairTotal := pairTotals aligned
    pools := (f.members.zip (aligned.zip (pairShares aligned))).map fun (m, dailyVol, share) => memberOf m dailyVol share }

def buildPairVolumeSnapshot (chain : Chain) (input : Input) (store : Store) : PairVolumeSnapshot :=
  let kept := keptFamilies chain input store
  { generatedAt := input.nowTs
    windowDays := WINDOW_DAYS
    pairs := kept.foldl (fun pairs f => pairs.set f.pairKey (payloadOf (dayStartSec input.nowTs) f)) .empty
    byPool := (kept.flatMap fun f => f.members.map fun m => (m.identity, f.pairKey)).foldl (fun byPool e => byPool.set e.1 e.2) .empty }

end LpTerminal.Volume
