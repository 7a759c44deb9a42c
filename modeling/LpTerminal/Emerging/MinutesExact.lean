import LpTerminal.Emerging.ScanCoverage
import Mathlib.Algebra.Ring.Int.Defs

/-!
Complete minutes against the chain: what the scanner has stored behind its cursor, the minute that is
written from it, and every run of the system.
-/

namespace LpTerminal.Emerging.Minutes

variable {tune : AggregateTune} {chain : Chain} {events : ChainEvents} {store : AggregateStore}

def tradedAt (chain : Chain) (pool : ℕ) (m : ℤ) (log : RawLog) : Bool :=
  log.contract = pool && log.topic = .swap && m ≤ (chain.ts log.blockNumber : ℤ) && (chain.ts log.blockNumber : ℤ) < m + 60

/-- The Swap logs that the chain has for a pool in `[m, m + 60)`. -/
def chainSwaps (chain : Chain) (pool : ℕ) (m : ℤ) : List RawLog := chain.logs.filter (tradedAt chain pool m)

def isBuy (payload : Payload) : Bool := payload.amount0.getD 0 < 0

def isSell (payload : Payload) : Bool := !isBuy payload && payload.amount1.getD 0 < 0

def buyVolume (payload : Payload) : ℤ := if isBuy payload then size (payload.amount1.getD 0) else 0

def sellVolume (payload : Payload) : ℤ := if isSell payload then -payload.amount1.getD 0 else 0

/-- The swaps of the minute are stored, and the row counts and sums exactly those. -/
structure Exact (chain : Chain) (events : ChainEvents) (pool : ℕ) (bucket : MinuteBucket) : Prop where
  stored : ∀ log ∈ chainSwaps chain pool bucket.minuteTs, StoredSwap events bucket.poolKey log
  swapCount : bucket.swapCount = (chainSwaps chain pool bucket.minuteTs).length
  sums : ∃ swaps : List Payload, swaps.Perm ((chainSwaps chain pool bucket.minuteTs).filterMap RawLog.args) ∧
    swaps.length = bucket.swapCount ∧
    bucket.amount0 = (swaps.map fun swap => swap.amount0.getD 0).sum ∧
    bucket.amount1 = (swaps.map fun swap => swap.amount1.getD 0).sum ∧
    (∀ n ∈ bucket.buyCount, n = swaps.countP isBuy) ∧
    (∀ n ∈ bucket.sellCount, n = swaps.countP isSell) ∧
    (∀ v ∈ bucket.volQuote, v = (swaps.map fun swap => buyVolume swap + sellVolume swap).sum) ∧
    (∀ v ∈ bucket.buyVolQuote, v = (swaps.map buyVolume).sum) ∧
    (∀ v ∈ bucket.sellVolQuote, v = (swaps.map sellVolume).sum)

theorem foldl_addSwap (swaps : List Payload) (s : MinuteSums) :
    swaps.foldl addSwap s =
      { buyCount := s.buyCount + swaps.countP isBuy
        sellCount := s.sellCount + swaps.countP isSell
        volQuote := s.volQuote + (swaps.map fun swap => buyVolume swap + sellVolume swap).sum
        buyVol := s.buyVol + (swaps.map buyVolume).sum
        sellVol := s.sellVol + (swaps.map sellVolume).sum
        amount0 := s.amount0 + (swaps.map fun swap => swap.amount0.getD 0).sum
        amount1 := s.amount1 + (swaps.map fun swap => swap.amount1.getD 0).sum } := by
  induction swaps generalizing s with
  | nil => simp
  | cons swap rest ih =>
    rw [List.foldl_cons, ih]
    unfold addSwap
    simp only [List.countP_cons, List.map_cons, List.sum_cons]
    by_cases buy : swap.amount0.getD 0 < 0
    · simp [buy, isBuy, isSell, buyVolume, sellVolume]
      omega
    · by_cases sell : swap.amount1.getD 0 < 0
      · simp [buy, sell, isBuy, isSell, buyVolume, sellVolume]
        omega
      · simp [buy, sell, isBuy, isSell, buyVolume, sellVolume]
        omega

theorem minuteOf_eq_iff {ts : ℕ} {m : ℤ} (aligned : 60 ∣ m) : minuteOf ts = m ↔ m ≤ ts ∧ (ts : ℤ) < m + 60 := by
  unfold minuteOf
  push_cast
  omega

theorem minuteOf_aligned (ts : ℕ) : 60 ∣ minuteOf ts := by
  unfold minuteOf
  push_cast
  omega

def inMinute (poolKey : ℕ) (m : ℤ) (row : ChainEvent) : Bool :=
  row.poolKey = some poolKey && row.canonical && row.kind = .swap && row.blockTs.any fun ts => minuteOf ts = m

theorem inMinute_iff {poolKey : ℕ} {m : ℤ} {row : ChainEvent} :
    inMinute poolKey m row = true ↔
      row.poolKey = some poolKey ∧ row.canonical = true ∧ row.kind = .swap ∧ ∃ ts, row.blockTs = some ts ∧ minuteOf ts = m := by
  simp [inMinute, and_assoc, Option.any_eq_true]

theorem poolSwaps_minute {poolKey past : ℕ} {first m : ℤ} (aligned : 60 ∣ m) (early : first ≤ m) (late : m + 60 ≤ past) :
    ((poolSwaps events poolKey first past).filter fun swap => minuteOf swap.1 = m).map Prod.snd =
      (events.filter (inMinute poolKey m)).map (fun row => row.payload) := by
  induction events with
  | nil => rfl
  | cons row rest ih =>
    unfold poolSwaps at ih ⊢
    rw [List.filterMap_cons]
    cases counted : inMinute poolKey m row with
    | true =>
      obtain ⟨key, canonical, swap, ts, given, here⟩ := inMinute_iff.mp counted
      have inside := (minuteOf_eq_iff aligned).mp here
      have ranged : first ≤ (ts : ℤ) ∧ ts < past := by omega
      simp only [key, canonical, swap, given, and_self, if_pos, Option.filter_some, ranged, decide_true, Option.map_some]
      rw [List.filter_cons_of_pos (by simpa using here), List.map_cons, ih, List.filter_cons_of_pos counted, List.map_cons]
    | false =>
      rw [List.filter_cons_of_neg (by simp [counted])]
      split
      · exact ih
      · rename_i swap read
        split at read
        · rename_i facts
          obtain ⟨ts, given, rfl⟩ := Option.map_eq_some_iff.mp read
          have elsewhere : ¬ minuteOf ts = m := fun here => by
            have counts := inMinute_iff.mpr ⟨facts.1, facts.2.1, facts.2.2, ts, (Option.filter_eq_some_iff.mp given).1, here⟩
            rw [counts] at counted
            cases counted
          rw [List.filter_cons_of_neg (by simpa using elsewhere)]
          exact ih
        · cases read

def rowEntry (row : ChainEvent) : (ℕ × ℕ) × Option Payload := ((row.txHash, row.logIndex), some row.payload)

def logEntry (log : RawLog) : (ℕ × ℕ) × Option Payload := ((log.txHash, log.logIndex), log.args)

theorem mem_chainSwaps {pool : ℕ} {m : ℤ} {log : RawLog} :
    log ∈ chainSwaps chain pool m ↔ log ∈ chain.logs ∧ log.contract = pool ∧ log.topic = .swap ∧
      m ≤ (chain.ts log.blockNumber : ℤ) ∧ (chain.ts log.blockNumber : ℤ) < m + 60 := by
  simp [chainSwaps, tradedAt, and_assoc]

def Dated (events : ChainEvents) (poolKey : ℕ) : Prop :=
  ∀ row ∈ events, row.kind = .swap → row.poolKey = some poolKey → row.canonical = true → row.blockTs ≠ none

theorem minute_perm {pool : Discovery} {m : ℤ} (aligned : 60 ∣ m) (keyed : Keyed events)
    (recorded : ∀ row ∈ events, Recorded tune chain row) (dated : Dated events pool.poolKey)
    (stored : ∀ log ∈ chainSwaps chain pool.canonicalId m, StoredSwap events pool.poolKey log) :
    ((events.filter (inMinute pool.poolKey m)).map rowEntry).Perm ((chainSwaps chain pool.canonicalId m).map logEntry) := by
  have left : ((events.filter (inMinute pool.poolKey m)).map rowEntry).Nodup := by
    refine List.Nodup.of_map Prod.fst ?_
    rw [List.map_map]
    exact (nodup_places keyed).sublist (List.filter_sublist.map _)
  have right : ((chainSwaps chain pool.canonicalId m).map logEntry).Nodup := by
    refine List.Nodup.of_map Prod.fst ?_
    rw [List.map_map]
    exact (nodup_places chain.distinct).sublist (List.filter_sublist.map _)
  refine (List.perm_ext_iff_of_nodup left right).mpr fun entry => ⟨fun counted => ?_, fun traded => ?_⟩
  · obtain ⟨row, member, rfl⟩ := List.mem_map.mp counted
    obtain ⟨inside, counts⟩ := List.mem_filter.mp member
    obtain ⟨key, -, swap, ts, given, here⟩ := inMinute_iff.mp counts
    obtain ⟨log, logged, facts⟩ := (recorded row inside).logged
    obtain ⟨topic, args, venue, named⟩ := facts.swap swap
    have contract := (formatEmergingPoolKey_inj (Option.some.inj (named.symm.trans key))).2
    have time : ts = chain.ts log.blockNumber := ((recorded row inside).dated ts given).trans (congrArg chain.ts facts.block)
    have range := (minuteOf_eq_iff aligned).mp here
    rw [time] at range
    refine List.mem_map.mpr ⟨log, mem_chainSwaps.mpr ⟨logged, contract, topic, range⟩, ?_⟩
    unfold logEntry rowEntry
    rw [args, facts.same.1, facts.same.2]
  · obtain ⟨log, member, rfl⟩ := List.mem_map.mp traded
    obtain ⟨logged, -, topic, range⟩ := mem_chainSwaps.mp member
    obtain ⟨row, inside, same, swap, key, canonical⟩ := stored log member
    obtain ⟨ts, given⟩ := Option.ne_none_iff_exists'.mp (dated row inside swap key canonical)
    have facts := (recorded row inside).rowOf logged same
    have time : ts = chain.ts log.blockNumber := ((recorded row inside).dated ts given).trans (congrArg chain.ts facts.block)
    have here : minuteOf ts = m := (minuteOf_eq_iff aligned).mpr (by rw [time]; exact range)
    have counts := inMinute_iff.mpr ⟨key, canonical, swap, ts, given, here⟩
    refine List.mem_map.mpr ⟨row, List.mem_filter.mpr ⟨inside, counts⟩, ?_⟩
    unfold logEntry rowEntry
    rw [(facts.swap swap).2.1, same.1, same.2]

theorem minuteBucket_exact {pool : Discovery} {m : ℤ} {version : ℕ} {quoted complete : Bool} (aligned : 60 ∣ m) (keyed : Keyed events)
    (recorded : ∀ row ∈ events, Recorded tune chain row) (dated : Dated events pool.poolKey)
    (stored : ∀ log ∈ chainSwaps chain pool.canonicalId m, StoredSwap events pool.poolKey log) :
    Exact chain events pool.canonicalId
      (minuteBucket version pool.poolKey quoted m ((events.filter (inMinute pool.poolKey m)).map fun row => row.payload) complete) := by
  have perm := minute_perm aligned keyed recorded dated stored
  have count : (events.filter (inMinute pool.poolKey m)).length = (chainSwaps chain pool.canonicalId m).length := by
    have lengths := perm.length_eq
    rwa [List.length_map, List.length_map] at lengths
  have payloads := perm.filterMap Prod.snd
  rw [List.filterMap_map, List.filterMap_map] at payloads
  set swaps := (events.filter (inMinute pool.poolKey m)).map fun row => row.payload with swapsEq
  have same : (events.filter (inMinute pool.poolKey m)).filterMap (Prod.snd ∘ rowEntry) = swaps := by
    rw [swapsEq, ← List.filterMap_eq_map]
    rfl
  rw [same] at payloads
  refine ⟨stored, (List.length_map _).trans count, swaps, payloads, rfl, ?_⟩
  unfold minuteBucket
  rw [foldl_addSwap]
  dsimp only [MinuteSums.zero]
  simp only [zero_add]
  refine ⟨trivial, trivial, ?_, ?_, ?_, ?_, ?_⟩
  all_goals
    intro n given
    split at given
    · first | exact (Option.some.inj given).symm | cases given
    · first | exact (Option.some.inj given).symm | cases given

def Filtered (chain : Chain) (store : AggregateStore) (pool : Discovery) : Prop :=
  (pool.canonicalId, pool.poolKey) ∈ store.set.cl ∨ UntradedBehind chain store.toScanStore pool.canonicalId

/-- The pool's own stream has reached the time of the pass, with the pool in its filter, and its swaps are dated. -/
structure Countable (tune : AggregateTune) (chain : Chain) (store : AggregateStore) (completeThrough : ℕ) (pool : Discovery) : Prop where
  scanned : Scanned tune chain store.toScanStore store.set
  through : ∃ block ∈ scannedThrough store.toScanStore, completeThrough ≤ chain.ts block
  filtered : Filtered chain store pool
  dated : Dated store.events pool.poolKey

variable {pool : Discovery} {completeThrough now : ℕ} {m : ℤ}

theorem Countable.stored (countable : Countable tune chain store completeThrough pool) (closed : m + 60 ≤ completeThrough)
    (floor : minuteOf ((store.seeds .clPools).getD 0) ≤ m) :
    ∀ log ∈ chainSwaps chain pool.canonicalId m, StoredSwap store.events pool.poolKey log := by
  intro log member
  obtain ⟨logged, contract, topic, late, early⟩ := mem_chainSwaps.mp member
  obtain ⟨block, reached, through⟩ := countable.through
  obtain ⟨seed, seeded⟩ := countable.scanned.seeded block reached
  rw [seeded, Option.getD_some] at floor
  have behind : log.blockNumber ≤ block := by
    by_contra ahead
    have later := chain.ordered (le_of_not_ge ahead)
    omega
  rcases countable.filtered with known | untraded
  · exact countable.scanned.covered block reached seed seeded _ known log logged contract topic behind (floor.trans late)
  · have before := untraded block reached seed seeded log logged contract topic behind
    omega

section Plan

variable (aligned : ∀ wm ∈ store.watermarks pool.poolKey, 60 ∣ wm)

theorem lastClosed_aligned : 60 ∣ (passPlan tune pool completeThrough now store).lastClosedMinute := by
  have here := minuteOf_aligned (min completeThrough now)
  unfold passPlan
  dsimp only
  omega

theorem lastClosed_closed : (passPlan tune pool completeThrough now store).lastClosedMinute + 60 ≤ completeThrough := by
  have here := ((minuteOf_eq_iff (minuteOf_aligned (min completeThrough now))).mp rfl).1
  unfold passPlan
  dsimp only
  omega

theorem minutes_aligned : ∀ m ∈ (passPlan tune pool completeThrough now store).minutes, 60 ∣ m := by
  intro m member
  obtain ⟨swap, -, rfl⟩ := List.mem_map.mp (List.mem_dedup.mp member)
  exact minuteOf_aligned swap.1

include aligned

theorem lastMinute_aligned : 60 ∣ (passPlan tune pool completeThrough now store).lastMinute := by
  unfold passPlan
  dsimp only
  cases known : store.watermarks pool.poolKey with
  | none => exact ⟨0, rfl⟩
  | some wm => exact aligned wm known

theorem fromMinute_aligned : 60 ∣ (passPlan tune pool completeThrough now store).fromMinute := by
  have last := @lastMinute_aligned tune store pool completeThrough now aligned
  unfold passPlan at last ⊢
  dsimp only at last ⊢
  omega

theorem zeroFloor_aligned : 60 ∣ (passPlan tune pool completeThrough now store).zeroFloorMinute := by
  have from' := @fromMinute_aligned tune store pool completeThrough now aligned
  have closed := @lastClosed_aligned tune store pool completeThrough now
  have seed := minuteOf_aligned ((store.seeds .clPools).getD 0)
  unfold passPlan at from' closed ⊢
  dsimp only at from' closed ⊢
  omega

theorem zeroStart_aligned : 60 ∣ (passPlan tune pool completeThrough now store).zeroStart := by
  have floor := @zeroFloor_aligned tune store pool completeThrough now aligned
  have from' := @fromMinute_aligned tune store pool completeThrough now aligned
  unfold PassPlan.zeroStart
  cases newest : (passPlan tune pool completeThrough now store).minutes.max? with
  | none =>
    simp only [Option.map_none, Option.getD_none]
    omega
  | some last =>
    have evented := minutes_aligned last (List.max?_mem newest)
    simp only [Option.map_some, Option.getD_some]
    omega

theorem mem_zeroMinutes (member : m ∈ (passPlan tune pool completeThrough now store).zeroMinutes) :
    60 ∣ m ∧ (passPlan tune pool completeThrough now store).zeroFloorMinute ≤ m ∧
      m ≤ (passPlan tune pool completeThrough now store).lastClosedMinute := by
  have start := @zeroStart_aligned tune store pool completeThrough now aligned
  have above : (passPlan tune pool completeThrough now store).zeroFloorMinute ≤ (passPlan tune pool completeThrough now store).zeroStart :=
    le_max_left _ _
  obtain ⟨i, inside, rfl⟩ := List.mem_map.mp member
  have bound := List.mem_range.mp inside
  omega

end Plan

theorem Countable.exact (countable : Countable tune chain store completeThrough pool) {version : ℕ} {quoted complete : Bool} (aligned : 60 ∣ m)
    (floor : (passPlan tune pool completeThrough now store).zeroFloorMinute ≤ m)
    (closed : m ≤ (passPlan tune pool completeThrough now store).lastClosedMinute) :
    Exact chain store.events pool.canonicalId
      (minuteBucket version pool.poolKey quoted m ((passPlan tune pool completeThrough now store).rows m) complete) := by
  have past := @lastClosed_closed tune store pool completeThrough now
  have seeded : minuteOf ((store.seeds .clPools).getD 0) ≤ (passPlan tune pool completeThrough now store).zeroFloorMinute := le_max_left _ _
  have from' : (passPlan tune pool completeThrough now store).fromMinute ≤ (passPlan tune pool completeThrough now store).zeroFloorMinute :=
    (le_max_right _ _).trans (le_max_right _ _)
  have rows : (passPlan tune pool completeThrough now store).rows m =
      (store.events.filter (inMinute pool.poolKey m)).map (fun row => row.payload) :=
    poolSwaps_minute aligned (from'.trans floor) (by push_cast; omega)
  rw [rows]
  exact minuteBucket_exact aligned countable.scanned.keyed countable.scanned.recorded countable.dated
    (countable.stored (by omega) (seeded.trans floor))

theorem rows_other {plan : PassPlan} (other : m ∉ plan.minutes) : plan.rows m = [] := by
  refine List.map_eq_nil_iff.mpr (List.filter_eq_nil_iff.mpr fun swap member here => other ?_)
  have minute : minuteOf swap.1 = m := by simpa using here
  exact List.mem_dedup.mpr (minute ▸ List.mem_map_of_mem member)

def ExactBuckets (chain : Chain) (events : ChainEvents) (buckets : Table MinuteBucket.key) : Prop :=
  ∀ bucket ∈ buckets.rows, bucket.complete = true → ∃ venue pool, bucket.poolKey = formatEmergingPoolKey venue pool ∧ Exact chain events pool bucket

structure PassSound (chain : Chain) (events : ChainEvents) (s : PassState) : Prop where
  aligned : 60 ∣ s.watermark
  exact : ExactBuckets chain events s.buckets

theorem writeMinute_sound {s : PassState} {swaps : List Payload} {complete : Bool} (sound : PassSound chain events s) (aligned : 60 ∣ m)
    (exact : complete = true → Exact chain events pool.canonicalId
      (minuteBucket tune.aggregateVersion pool.poolKey (provenQuoteUsdg tune pool) m swaps complete)) :
    PassSound chain events (writeMinute tune pool m swaps complete s) := by
  constructor
  · have before := sound.aligned
    unfold writeMinute
    dsimp only
    omega
  · intro bucket member isComplete
    rcases Table.mem_put.mp member with rfl | ⟨old, -⟩
    · exact ⟨pool.venue, pool.canonicalId, rfl, exact isComplete⟩
    · exact sound.exact bucket old isComplete

theorem eventedMinute_sound {s : PassState} (countable : Countable tune chain store completeThrough pool) (sound : PassSound chain store.events s)
    (aligned : 60 ∣ m) :
    PassSound chain store.events (eventedMinute tune pool (passPlan tune pool completeThrough now store) store.buckets s m) := by
  unfold eventedMinute
  split
  · exact sound
  · rename_i closed
    dsimp only
    split
    · exact sound
    · exact writeMinute_sound sound aligned fun complete => countable.exact aligned (of_decide_eq_true complete) (not_lt.mp closed)

theorem zeroMinute_sound {s : PassState} (countable : Countable tune chain store completeThrough pool) (sound : PassSound chain store.events s)
    (aligned : 60 ∣ m) (floor : (passPlan tune pool completeThrough now store).zeroFloorMinute ≤ m)
    (closed : m ≤ (passPlan tune pool completeThrough now store).lastClosedMinute) :
    PassSound chain store.events (zeroMinute tune pool (passPlan tune pool completeThrough now store) store.buckets s m) := by
  unfold zeroMinute
  split
  · exact sound
  · rename_i absent
    refine writeMinute_sound sound aligned fun _ => ?_
    rw [← rows_other fun evented => absent (Or.inl evented)]
    exact countable.exact aligned floor closed

structure BucketsSound (chain : Chain) (store : AggregateStore) : Prop where
  aligned : ∀ key, ∀ wm ∈ store.watermarks key, 60 ∣ wm
  exact : ExactBuckets chain store.events store.buckets

theorem aggregatePoolMinutes_sound (countable : Countable tune chain store completeThrough pool) (sound : BucketsSound chain store) :
    BucketsSound chain (aggregatePoolMinutes tune completeThrough now store pool) := by
  unfold aggregatePoolMinutes
  dsimp only
  split
  · exact sound
  · have own := sound.aligned pool.poolKey
    have evented : PassSound chain store.events ((passPlan tune pool completeThrough now store).minutes.foldl
        (eventedMinute tune pool (passPlan tune pool completeThrough now store) store.buckets)
        ⟨store.buckets, (passPlan tune pool completeThrough now store).lastMinute⟩) :=
      List.foldlRecOn _ _ ⟨@lastMinute_aligned tune store pool completeThrough now own, sound.exact⟩ fun _ before m member =>
        eventedMinute_sound countable before (minutes_aligned m member)
    have zeroed := List.foldlRecOn (motive := PassSound chain store.events) (passPlan tune pool completeThrough now store).zeroMinutes
      (zeroMinute tune pool (passPlan tune pool completeThrough now store) store.buckets) evented fun _ before m member => by
        obtain ⟨aligned, floor, closed⟩ := mem_zeroMinutes own member
        exact zeroMinute_sound countable before aligned floor closed
    refine ⟨fun key wm given => ?_, zeroed.exact⟩
    dsimp only at given
    split at given
    · rw [← Option.some.inj given]
      exact zeroed.aligned
    · exact sound.aligned key wm given

def concentratedPools (ledger : List Discovery) : List Discovery := ledger.filter fun row => row.tracked && row.concentrated

def LedgerApart (tune : AggregateTune) (ledger : List Discovery) : Prop :=
  ((concentratedPools ledger).map Discovery.canonicalId).Nodup ∧ ∀ pool ∈ concentratedPools ledger, pool.canonicalId ≠ tune.poolManager

/-- What a step must find. A pool that joins the filter, a seed, and an aggregation each take for granted what the
code does not check. -/
def Ready (tune : AggregateTune) (chain : Chain) (store : AggregateStore) : AggregateStep → Prop
  | .admissions ledger => LedgerApart tune ledger
  | .sweepStart => ∀ pool ∈ concentratedPools store.ledger, Filtered chain store pool
  | .seed kind block => kind = .clPools → ∀ entry ∈ store.set.cl, Untraded chain entry.1 (chain.ts block) block
  | .batch kind hi => kind = .clPools → ∀ cursor ∈ store.cursors .clPools,
      ∀ log ∈ getLogs tune chain store.set .clPools (cursor.blockNumber + 1) hi, log.topic = .swap → log.args ≠ none
  | .aggregate _ => ∀ completeThrough ∈ streamComplete store.toScanStore,
      (∃ block ∈ scannedThrough store.toScanStore, completeThrough ≤ chain.ts block) ∧
        ∀ pool ∈ concentratedPools store.ledger, Filtered chain store pool ∧ Dated store.events pool.poolKey
  | _ => True

instance {pool seed block : ℕ} : Decidable (Untraded chain pool seed block) :=
  inferInstanceAs (Decidable (∀ log ∈ chain.logs, _))

instance {scan : ScanStore} {pool : ℕ} : Decidable (UntradedBehind chain scan pool) :=
  inferInstanceAs (Decidable (∀ block ∈ scannedThrough scan, _))

instance : Decidable (Filtered chain store pool) := inferInstanceAs (Decidable (_ ∨ _))

instance {poolKey : ℕ} : Decidable (Dated events poolKey) := inferInstanceAs (Decidable (∀ row ∈ events, _))

instance {ledger : List Discovery} : Decidable (LedgerApart tune ledger) := inferInstanceAs (Decidable (_ ∧ _))

instance : ∀ step : AggregateStep, Decidable (Ready tune chain store step)
  | .admissions ledger => inferInstanceAs (Decidable (LedgerApart tune ledger))
  | .sweepStart => inferInstanceAs (Decidable (∀ pool ∈ concentratedPools store.ledger, Filtered chain store pool))
  | .seed kind block => inferInstanceAs (Decidable (kind = .clPools → ∀ entry ∈ store.set.cl, Untraded chain entry.1 (chain.ts block) block))
  | .batch kind hi => inferInstanceAs (Decidable (kind = .clPools → ∀ cursor ∈ store.cursors .clPools,
      ∀ log ∈ getLogs tune chain store.set .clPools (cursor.blockNumber + 1) hi, log.topic = .swap → log.args ≠ none))
  | .aggregate _ => inferInstanceAs (Decidable (∀ completeThrough ∈ streamComplete store.toScanStore,
      (∃ block ∈ scannedThrough store.toScanStore, completeThrough ≤ chain.ts block) ∧
        ∀ pool ∈ concentratedPools store.ledger, Filtered chain store pool ∧ Dated store.events pool.poolKey))
  | .dataGap _ => .isTrue trivial
  | .date _ => .isTrue trivial

structure Sound (tune : AggregateTune) (chain : Chain) (store : AggregateStore) : Prop where
  scanned : Scanned tune chain store.toScanStore store.set
  ledger : LedgerApart tune store.ledger
  buckets : BucketsSound chain store

theorem sound_empty : Sound tune chain AggregateStore.empty where
  scanned :=
    ⟨List.Pairwise.nil, fun _ member => (List.not_mem_nil member).elim, fun _ member => (List.not_mem_nil member).elim, nofun,
      ⟨fun _ member => (List.not_mem_nil member).elim, List.nodup_nil, fun _ member => (List.not_mem_nil member).elim⟩, nofun⟩
  ledger := ⟨List.nodup_nil, fun _ member => (List.not_mem_nil member).elim⟩
  buckets := ⟨nofun, fun _ member => (List.not_mem_nil member).elim⟩

theorem setApart_build {ledger : List Discovery} (apart : LedgerApart tune ledger) : SetApart tune (buildTrackedSet ledger) where
  keys entry member := by
    obtain ⟨row, -, rfl⟩ := List.mem_map.mp member
    exact ⟨row.venue, rfl⟩
  single := by
    unfold buildTrackedSet
    rw [List.map_map]
    exact apart.1
  manager entry member := by
    obtain ⟨row, inside, rfl⟩ := List.mem_map.mp member
    exact apart.2 row inside

theorem BucketsSound.mono {after : AggregateStore} (sound : BucketsSound chain store) (buckets : after.buckets = store.buckets)
    (watermarks : after.watermarks = store.watermarks)
    (kept : ∀ key log, StoredSwap store.events key log → StoredSwap after.events key log) : BucketsSound chain after := by
  refine ⟨by rw [watermarks]; exact sound.aligned, ?_⟩
  rw [buckets]
  intro bucket member complete
  obtain ⟨venue, pool, key, exact⟩ := sound.exact bucket member complete
  exact ⟨venue, pool, key, fun log traded => kept _ _ (exact.stored log traded), exact.swapCount, exact.sums⟩

theorem aggregatePoolMinutes_scan (completeThrough now : ℕ) (store : AggregateStore) (pool : Discovery) :
    (aggregatePoolMinutes tune completeThrough now store pool).toScanStore = store.toScanStore ∧
      (aggregatePoolMinutes tune completeThrough now store pool).set = store.set ∧
      (aggregatePoolMinutes tune completeThrough now store pool).ledger = store.ledger := by
  unfold aggregatePoolMinutes
  dsimp only
  split <;> exact ⟨rfl, rfl, rfl⟩

theorem sweep_sound (sound : Sound tune chain store) (now : ℕ) (ready : Ready tune chain store (.aggregate now)) :
    Sound tune chain (runEmergingAggregateSweep tune now store) := by
  unfold runEmergingAggregateSweep
  cases newest : streamComplete store.toScanStore with
  | none => exact sound
  | some completeThrough =>
    obtain ⟨through, pools⟩ := ready completeThrough newest
    -- a pass leaves what the next one rests on
    have each : ∀ s, (s.toScanStore = store.toScanStore ∧ s.set = store.set ∧ s.ledger = store.ledger) ∧ BucketsSound chain s →
        ∀ pool ∈ concentratedPools store.ledger,
          ((aggregatePoolMinutes tune completeThrough now s pool).toScanStore = store.toScanStore ∧
            (aggregatePoolMinutes tune completeThrough now s pool).set = store.set ∧
            (aggregatePoolMinutes tune completeThrough now s pool).ledger = store.ledger) ∧
          BucketsSound chain (aggregatePoolMinutes tune completeThrough now s pool) := by
      rintro s ⟨⟨scan, set, ledger⟩, before⟩ pool member
      obtain ⟨filtered, dated⟩ := pools pool member
      have countable : Countable tune chain s completeThrough pool := by
        refine ⟨?_, ?_, ?_, ?_⟩
        · rw [scan, set]
          exact sound.scanned
        · rw [scan]
          exact through
        · unfold Filtered
          rw [scan, set]
          exact filtered
        · rw [scan]
          exact dated
      obtain ⟨scanned, filter, rows⟩ := @aggregatePoolMinutes_scan tune completeThrough now s pool
      exact ⟨⟨scanned.trans scan, filter.trans set, rows.trans ledger⟩, aggregatePoolMinutes_sound countable before⟩
    obtain ⟨⟨scan, set, ledger⟩, buckets⟩ := List.foldlRecOn (concentratedPools store.ledger)
      (aggregatePoolMinutes tune completeThrough now) (⟨⟨rfl, rfl, rfl⟩, sound.buckets⟩ : _ ∧ BucketsSound chain store) each
    refine ⟨?_, ?_, buckets⟩
    · dsimp only
      rw [show store.ledger.filter _ = concentratedPools store.ledger from rfl, scan, set]
      exact sound.scanned
    · dsimp only
      rw [show store.ledger.filter _ = concentratedPools store.ledger from rfl, ledger]
      exact sound.ledger

theorem Sound.step (sound : Sound tune chain store) (step : AggregateStep) (ready : Ready tune chain store step) :
    Sound tune chain (aggregateStep tune chain store step) := by
  cases step with
  | admissions ledger => exact ⟨sound.scanned, ready, sound.buckets.mono rfl rfl fun _ _ => id⟩
  | sweepStart =>
    refine ⟨sound.scanned.refilter (setApart_build sound.ledger) fun entry member => ?_, sound.ledger,
      sound.buckets.mono rfl rfl fun _ _ => id⟩
    obtain ⟨row, inside, rfl⟩ := List.mem_map.mp member
    exact ready row inside
  | seed kind block =>
    unfold aggregateStep
    dsimp only
    split
    · rename_i fresh
      exact ⟨sound.scanned.seedStream fresh.2 ready, sound.ledger, sound.buckets.mono rfl rfl fun _ _ => id⟩
    · exact sound
  | batch kind hi =>
    unfold aggregateStep
    dsimp only
    split
    · exact sound
    · rename_i cursor read
      split
      · rename_i forward
        refine ⟨sound.scanned.scanPage read forward.2 fun own => ?_, sound.ledger, sound.buckets.mono rfl rfl fun _ _ stored => ?_⟩
        · subst own
          exact ready rfl cursor read
        · exact stored.mono (insertEvents_batched _).kept
      · exact sound
  | dataGap kind => exact ⟨sound.scanned.dataGap, sound.ledger, sound.buckets.mono rfl rfl fun _ _ => id⟩
  | date block =>
    exact ⟨sound.scanned.dateBlock block, sound.ledger, sound.buckets.mono rfl rfl fun _ _ stored => stored.withDate block _⟩
  | aggregate now => exact sweep_sound sound now ready

/-- Along every run whose steps are ready, a complete row is exactly the swaps that the chain has for its pool and minute,
and they are stored. -/
theorem complete_minutes_exact (tune : AggregateTune) (chain : Chain) (steps : List AggregateStep)
    (ready : Trace.Along (aggregateStep tune chain) (Ready tune chain) AggregateStore.empty steps) :
    ∀ bucket ∈ (Trace.run (aggregateStep tune chain) AggregateStore.empty steps).buckets.rows, bucket.complete = true →
      ∃ venue pool, bucket.poolKey = formatEmergingPoolKey venue pool ∧
        Exact chain (Trace.run (aggregateStep tune chain) AggregateStore.empty steps).events pool bucket := by
  have each : ∀ s step, Sound tune chain s → Ready tune chain s step → Sound tune chain (aggregateStep tune chain s step) :=
    fun _ step sound => sound.step step
  exact (Trace.run_keeps each sound_empty ready).buckets.exact

def sampleTune : AggregateTune := ⟨0, 2, 6, 1⟩

def samplePool (id : ℕ) : Discovery := ⟨.univ3, id, some 1, some 2, some 1, some 0, false⟩

def sampleChain : Chain where
  logs := [⟨7, .swap, none, some ⟨none, none, none, some (-5), some 9, none⟩, 7, 70, none, 1, 0, 0⟩,
    ⟨8, .swap, none, some ⟨none, none, none, some 4, some (-3), none⟩, 19, 190, some 250, 2, 0, 0⟩]
  ts block := 60 + 10 * block
  hash block := 10 * block
  ordered _ _ before := by dsimp only; omega
  distinct := by decide
  stamped := by decide

def sampleSteps : List AggregateStep :=
  [.admissions [samplePool 7], .sweepStart, .seed .clPools 0, .seed .tokens 0, .batch .clPools 10, .date 7,
    .admissions [samplePool 7, samplePool 8], .sweepStart, .batch .clPools 24, .batch .tokens 24, .aggregate 1000]

theorem complete_minutes_exact_sample :
    Trace.Along (aggregateStep sampleTune sampleChain) (Ready sampleTune sampleChain) AggregateStore.empty sampleSteps ∧
      (∃ bucket ∈ (Trace.run (aggregateStep sampleTune sampleChain) AggregateStore.empty sampleSteps).buckets.rows,
        bucket.complete = true ∧ bucket.swapCount = 1 ∧ bucket.volQuote = some 9) ∧
      ∀ bucket ∈ (Trace.run (aggregateStep sampleTune sampleChain) AggregateStore.empty sampleSteps).buckets.rows, bucket.complete = true →
        ∃ venue pool, bucket.poolKey = formatEmergingPoolKey venue pool ∧
          Exact sampleChain (Trace.run (aggregateStep sampleTune sampleChain) AggregateStore.empty sampleSteps).events pool bucket :=
  ⟨by decide, by decide, complete_minutes_exact sampleTune sampleChain sampleSteps (by decide)⟩

/-- The token stream is ahead of the pool stream, which has scanned nothing: the minute of the swap is complete and empty. -/
theorem token_stream_completes_unscanned_minute :
    ¬ ∀ (tune : AggregateTune) (chain : Chain) (steps : List AggregateStep),
      ∀ bucket ∈ (Trace.run (aggregateStep tune chain) AggregateStore.empty steps).buckets.rows, bucket.complete = true →
        ∃ venue pool, bucket.poolKey = formatEmergingPoolKey venue pool ∧
          Exact chain (Trace.run (aggregateStep tune chain) AggregateStore.empty steps).events pool bucket := by
  intro law
  have broken : ∃ bucket ∈ (Trace.run (aggregateStep sampleTune sampleChain) AggregateStore.empty
      [.admissions [samplePool 7], .sweepStart, .seed .clPools 0, .seed .tokens 0, .batch .tokens 24, .aggregate 1000]).buckets.rows,
      bucket.complete = true ∧ bucket.poolKey = formatEmergingPoolKey .univ3 7 ∧
        bucket.swapCount ≠ (chainSwaps sampleChain 7 bucket.minuteTs).length := by
    decide
  obtain ⟨bucket, member, complete, key, empty⟩ := broken
  obtain ⟨venue, pool, same, exact⟩ := law sampleTune sampleChain _ bucket member complete
  obtain ⟨-, rfl⟩ := formatEmergingPoolKey_inj (key.symm.trans same)
  exact empty exact.swapCount

end LpTerminal.Emerging.Minutes
