import LpTerminal.Catalog.LogWindows
import LpTerminal.Catalog.Rows
import LpTerminal.Lib.Trace

/-!
The bootstrap and the tail of a v3 directory on a chain without a Graph snapshot, and where it has every pool up to its cursor.
-/

namespace LpTerminal.Catalog.V3Backfill

open Durable

structure PoolCreated where
  blockNumber : Nat
  token0 : Address
  token1 : Address
  fee : Nat
  tickSpacing : Int
  pool : Address

/-- The logs of the factory in block and log order. A pool is created once. -/
structure Factory where
  logs : List PoolCreated
  ordered : logs.Pairwise fun first second => first.blockNumber ≤ second.blockNumber
  distinct : (logs.map PoolCreated.pool).Nodup

structure Config where
  factory : Factory
  startBlock : Nat
  INDEXER_FINALITY_BLOCKS : Nat
  V3_RPC_WINDOW_BLOCKS : Nat
  V3_RPC_CONCURRENCY : Nat

structure Row where
  address : Address
  token0 : Address
  token1 : Address
  feePpm : Nat
  tickSpacing : Int
  createdBlock : Nat
deriving DecidableEq

/-- The rows of the venue, which no other task writes, and its keys of `kv`. -/
structure Store where
  pools : Table Row.address
  v3Cursor : Option Nat
  v3TargetBlock : Option Nat
  v3Backfilled : Bool

def Store.fresh : Store := ⟨.empty, none, none, false⟩

structure Reply where
  blockNumber : Option Nat
  getLogs : Settled
  /-- Blockscout answered with its page, or that it has no records. -/
  blockscout : Bool

abbrev Sync := Durable ScanFailure (Process Store Reply)

def nondecreasingBlock (stored : Option Nat) (next : Nat) : Nat :=
  match stored with
  | some stored => max stored next
  | none => next

def rowOf (log : PoolCreated) : Row where
  address := log.pool
  token0 := log.token0
  token1 := log.token1
  feePpm := log.fee
  tickSpacing := log.tickSpacing
  createdBlock := log.blockNumber

/-- `INSERT OR IGNORE`: true where the address is new. -/
def insertPool (row : Row) (pools : Table Row.address) : Table Row.address × Bool :=
  match pools.get? row.address with
  | some _ => (pools, false)
  | none => (pools.put row, true)

def insertLogs (pools : Table Row.address) : List PoolCreated → Table Row.address × List Address
  | [] => (pools, [])
  | log :: rest =>
    let (pools, isNew) := insertPool (rowOf log) pools
    let (pools, fresh) := insertLogs pools rest
    (pools, if isNew then log.pool :: fresh else fresh)

variable (config : Config)

def logsIn (fromBlock toBlock : Nat) : List PoolCreated :=
  config.factory.logs.filter fun log => fromBlock ≤ log.blockNumber ∧ log.blockNumber ≤ toBlock

def commitWindow (window : LogWindow) (store : Store) : Store × List Address :=
  let (pools, fresh) := insertLogs store.pools (logsIn config window.fromBlock window.toBlock)
  ({ store with pools, v3Cursor := some (nondecreasingBlock store.v3Cursor window.toBlock) }, fresh)

def scanOptions (fromBlock toBlock : Nat) : AdaptiveLogScanOptions Store Address where
  fromBlock
  toBlock
  maxWindowBlocks := config.V3_RPC_WINDOW_BLOCKS
  concurrency := config.V3_RPC_CONCURRENCY
  commitWindow := commitWindow config

def scanV3Windows (fromBlock toBlock : Nat) : Sync (List Address) :=
  scanAdaptiveLogWindows (scanOptions config fromBlock toBlock) Reply.getLogs

def getBlockNumber : Sync Nat :=
  await .stopped fun reply => match reply.blockNumber with
    | some block => .ok block
    | none => .error .request

def statement (update : Store → Store) : Sync Unit := do
  await .stopped fun _ => .ok ()
  commit update

def tailFrom (stored : Option Nat) (head : Nat) : Nat := max config.startBlock (stored.getD (head - 2000) - 120)

def tailV3Venue (finalizedHead : Nat) : Sync (List Address) := do
  let head := max config.startBlock finalizedHead
  let process ← read
  let fresh ← scanV3Windows config (tailFrom config process.store.v3Cursor head) head
  statement fun store =>
    { store with
      v3Cursor := some (nondecreasingBlock store.v3Cursor head)
      v3TargetBlock := some (nondecreasingBlock store.v3TargetBlock head) }
  pure fresh

def tailV3 : Sync (List Address) := do
  let block ← getBlockNumber
  tailV3Venue config (block - config.INDEXER_FINALITY_BLOCKS)

def finish (added : Nat) : Sync Nat := do
  statement fun store => { store with v3Backfilled := true }
  pure added

def PAGE : Nat := 1000

def setCursor (block : Nat) (store : Store) : Store := { store with v3Cursor := some block }

def setPools (logs : List PoolCreated) (store : Store) : Store := { store with pools := (insertLogs store.pools logs).1 }

def blockscoutPages (target : Nat) : Nat → Nat → Nat → Nat → Sync Nat
  | 0, _, _, _ => fail .unended
  | rounds + 1, cursor, flakes, added => do
    let answered ← await .stopped fun reply => .ok reply.blockscout
    if answered then
      let logs := (logsIn config cursor target).take PAGE
      match logs.getLast? with
      | none => finish added
      | some last => do
        let process ← read
        statement (setPools logs)
        statement (setCursor last.blockNumber)
        let added := added + (insertLogs process.store.pools logs).2.length
        if logs.length < PAGE then finish added else blockscoutPages target rounds last.blockNumber 0 added
    else if 6 ≤ flakes + 1 then do
      let fresh ← scanV3Windows config cursor target
      statement (setCursor target)
      finish (added + fresh.length)
    else blockscoutPages target rounds cursor (flakes + 1) added

def targetBlock (block : Nat) : Nat := max config.startBlock (block - config.INDEXER_FINALITY_BLOCKS)

def firstCursor (stored : Option Nat) : Nat := max config.startBlock (stored.getD config.startBlock)

def backfillV3 (useRpcBackfill : Bool) (rounds : Nat) : Sync Nat := do
  let block ← getBlockNumber
  let target := targetBlock config block
  statement fun store => { store with v3TargetBlock := some target }
  let process ← read
  if process.store.v3Backfilled then do
    let fresh ← tailV3 config
    pure fresh.length
  else if useRpcBackfill then do
    let fresh ← scanV3Windows config (firstCursor config process.store.v3Cursor) target
    statement (setCursor target)
    finish fresh.length
  else blockscoutPages config target rounds (firstCursor config process.store.v3Cursor) 0 0

inductive Call
  | boot (useRpcBackfill : Bool) (replies : List Reply)
  | tick (replies : List Reply)

def step (store : Store) : Call → Store
  | .boot useRpcBackfill replies => (left (backfillV3 config useRpcBackfill replies.length) ⟨store, replies⟩).store
  | .tick replies => if store.v3Backfilled then (left (tailV3 config) ⟨store, replies⟩).store else store

open Durable AdaptiveLogScan

variable {config : Config} {store store' : Store}

def Cataloged (store : Store) (log : PoolCreated) : Prop := store.pools.get? log.pool = some (rowOf log)

instance {log : PoolCreated} : Decidable (Cataloged store log) := inferInstanceAs (Decidable (_ = _))

def Complete (config : Config) (before : Nat) (store : Store) : Prop :=
  ∀ log ∈ config.factory.logs, config.startBlock ≤ log.blockNumber → log.blockNumber < before → Cataloged store log

def Sound (config : Config) (pools : Table Row.address) : Prop := ∀ row ∈ pools.rows, ∃ log ∈ config.factory.logs, rowOf log = row

def Grown (before after : Table Row.address) : Prop := ∀ address row, before.get? address = some row → after.get? address = some row

theorem Grown.refl (pools : Table Row.address) : Grown pools pools := fun _ _ => id

theorem Grown.trans {first second third : Table Row.address} (left : Grown first second) (right : Grown second third) : Grown first third :=
  fun address row found => right address row (left address row found)

theorem Complete.mono {less more : Nat} (complete : Complete config more store) (le : less ≤ more) : Complete config less store :=
  fun log member started before => complete log member started (lt_of_lt_of_le before le)

theorem Complete.grown {before : Nat} (complete : Complete config before store) (grown : Grown store.pools store'.pools) :
    Complete config before store' :=
  fun log member started within => grown _ _ (complete log member started within)

theorem Factory.unique (factory : Factory) {first second : PoolCreated} (left : first ∈ factory.logs) (right : second ∈ factory.logs)
    (same : first.pool = second.pool) : first = second :=
  List.inj_on_of_nodup_map factory.distinct left right same

theorem insertPool_spec {pools : Table Row.address} (sound : Sound config pools) {log : PoolCreated} (member : log ∈ config.factory.logs) :
    Sound config (insertPool (rowOf log) pools).1 ∧ Grown pools (insertPool (rowOf log) pools).1 ∧
      (insertPool (rowOf log) pools).1.get? log.pool = some (rowOf log) := by
  unfold insertPool
  cases found : pools.get? (rowOf log).address with
  | some row =>
    refine ⟨sound, Grown.refl _, found.trans ?_⟩
    obtain ⟨other, listed, rfl⟩ := sound row (Table.get?_mem found)
    have same : (rowOf other).address = (rowOf log).address := Table.get?_key found
    rw [config.factory.unique listed member same]
  | none =>
    refine ⟨fun row inside => ?_, fun address row before => ?_, ?_⟩
    · rcases Table.mem_put.mp inside with rfl | ⟨old, _⟩
      · exact ⟨log, member, rfl⟩
      · exact sound row old
    · have other : address ≠ (rowOf log).address := by
        rintro rfl
        rw [found] at before
        cases before
      exact (Table.get?_put_other other).trans before
    · have stored : rowOf log ∈ (pools.put (rowOf log)).rows := Table.mem_put.mpr (.inl rfl)
      exact Table.get?_of_mem stored

theorem insertLogs_spec {logs : List PoolCreated} {pools : Table Row.address} (sound : Sound config pools)
    (listed : ∀ log ∈ logs, log ∈ config.factory.logs) :
    Sound config (insertLogs pools logs).1 ∧ Grown pools (insertLogs pools logs).1 ∧
      ∀ log ∈ logs, (insertLogs pools logs).1.get? log.pool = some (rowOf log) := by
  induction logs generalizing pools with
  | nil => exact ⟨sound, Grown.refl _, fun _ none => by cases none⟩
  | cons log rest ih =>
    obtain ⟨sound', grown, own⟩ := insertPool_spec sound (listed log List.mem_cons_self)
    obtain ⟨sound'', grown', others⟩ := ih sound' fun other later => listed other (List.mem_cons_of_mem _ later)
    refine ⟨sound'', grown.trans grown', fun other member => ?_⟩
    rcases List.mem_cons.mp member with rfl | later
    · exact grown' _ _ own
    · exact others other later

theorem mem_logsIn {fromBlock toBlock : Nat} {log : PoolCreated} :
    log ∈ logsIn config fromBlock toBlock ↔ log ∈ config.factory.logs ∧ fromBlock ≤ log.blockNumber ∧ log.blockNumber ≤ toBlock := by
  simp [logsIn]

/-- Below its cursor the directory is complete, and after the bootstrap at the cursor as well. -/
structure Inv (config : Config) (store : Store) : Prop where
  sound : Sound config store.pools
  below : ∀ c ∈ store.v3Cursor, Complete config c store
  done : store.v3Backfilled = true → ∀ c ∈ store.v3Cursor, Complete config (c + 1) store

theorem Inv.fresh : Inv config Store.fresh := by
  constructor
  case sound =>
    intro row member
    cases member
  case below =>
    intro c none
    cases none
  case done =>
    intro _ c none
    cases none

theorem Inv.advanced (inv : Inv config store) (sound : Sound config store'.pools) (grown : Grown store.pools store'.pools)
    (flag : store'.v3Backfilled = store.v3Backfilled)
    (cursor : ∀ c ∈ store'.v3Cursor, c ∈ store.v3Cursor ∨ Complete config (c + 1) store') : Inv config store' := by
  constructor
  case sound => exact sound
  case below =>
    intro c member
    rcases cursor c member with old | complete
    · exact (inv.below c old).grown grown
    · exact complete.mono (Nat.le_succ c)
  case done =>
    intro backfilled c member
    rcases cursor c member with old | complete
    · exact (inv.done (flag ▸ backfilled) c old).grown grown
    · exact complete

def Reached (before after : Option Nat) : Prop := ∀ c ∈ before, ∃ c' ∈ after, c ≤ c'

theorem Reached.refl (cursor : Option Nat) : Reached cursor cursor := fun c member => ⟨c, member, le_refl c⟩

theorem Reached.nondecreasing {before cursor : Option Nat} {block : Nat} (reached : Reached before cursor) :
    Reached before (some (nondecreasingBlock cursor block)) := by
  intro c member
  obtain ⟨c', rfl, le⟩ := reached c member
  exact ⟨_, rfl, le.trans (le_max_left c' block)⟩

theorem nondecreasingBlock_cases (stored : Option Nat) (next : Nat) :
    nondecreasingBlock stored next ∈ stored ∨ nondecreasingBlock stored next = next := by
  cases stored with
  | none => exact .inr rfl
  | some c =>
    rcases max_choice c next with left | right
    · exact .inl (congrArg some left).symm
    · exact .inr right

structure Scanned (config : Config) (flag : Bool) (before : Option Nat) (lo : Nat) (store : Store) : Prop where
  inv : Inv config store
  complete : Complete config lo store
  reached : Reached before store.v3Cursor
  flag : store.v3Backfilled = flag

theorem commitWindow_scanned {flag : Bool} {before : Option Nat} {lo hi : Nat} (scanned : Scanned config flag before lo store) : Scanned config flag before (hi + 1) (commitWindow config ⟨lo, hi⟩ store).1 := by
  obtain ⟨sound, grown, own⟩ := insertLogs_spec scanned.inv.sound fun log inside => (@mem_logsIn config lo hi log).mp inside |>.1
  have complete : Complete config (hi + 1) (commitWindow config ⟨lo, hi⟩ store).1 := by
    intro log member started before
    rcases lt_or_ge log.blockNumber lo with earlier | inside
    · exact grown _ _ (scanned.complete log member started earlier)
    · exact own log (mem_logsIn.mpr ⟨member, inside, Nat.lt_succ_iff.mp before⟩)
  refine ⟨scanned.inv.advanced sound grown rfl fun c member => ?_, complete, scanned.reached.nondecreasing, scanned.flag⟩
  cases member
  rcases nondecreasingBlock_cases store.v3Cursor hi with old | new
  · exact .inl old
  · rw [new]
    exact .inr complete

theorem scanV3Windows_spec {flag : Bool} {before : Option Nat} {fromBlock toBlock : Nat} :
    Triple (Stored (Scanned config flag before fromBlock)) (scanV3Windows config fromBlock toBlock)
      (fun _ => Stored (Scanned config flag before (max fromBlock (toBlock + 1)))) (Stored fun store => ∃ lo, Scanned config flag before lo store) := by
  unfold scanV3Windows
  exact @scan_keeps Store Reply Address (scanOptions config fromBlock toBlock) Reply.getLogs (Scanned config flag before)
    fun _ _ _ _ _ scanned => commitWindow_scanned scanned

theorem statement_spec {P Q : Store → Prop} {update : Store → Store} (holds : ∀ store, P store → Q (update store)) {E : Store → Prop}
    (stops : ∀ store, P store → E store) : Triple (Stored P) (statement update) (fun _ => Stored Q) (Stored E) :=
  triple_await_bind (fun process before => stops process.store before) fun _ => triple_commit holds

theorem statement_at {update : Store → Store} {E : Store → Prop} (stops : E store) :
    Triple (Stored (· = store)) (statement update) (fun _ => Stored (· = update store)) (Stored E) := by
  refine statement_spec ?_ ?_
  · rintro _ rfl
    rfl
  · rintro _ rfl
    exact stops

def TailSafe (config : Config) (store : Store) (block : Option Nat) : Prop :=
  store.v3Cursor = none → ∀ n ∈ block, ∀ log ∈ config.factory.logs, config.startBlock ≤ log.blockNumber →
    tailFrom config none (max config.startBlock (n - config.INDEXER_FINALITY_BLOCKS)) ≤ log.blockNumber

/-- What a call leaves of a database whose bootstrap is complete. -/
structure Tailed (config : Config) (flag : Bool) (before : Option Nat) (store : Store) : Prop where
  inv : Inv config store
  reached : Reached before store.v3Cursor
  flag : store.v3Backfilled = flag

theorem Scanned.tailed {flag : Bool} {before : Option Nat} {lo : Nat} (scanned : Scanned config flag before lo store) :
    Tailed config flag before store := ⟨scanned.inv, scanned.reached, scanned.flag⟩

theorem tailFrom_complete {head : Nat} (inv : Inv config store) (backfilled : store.v3Backfilled = true)
    (safe : store.v3Cursor = none → ∀ log ∈ config.factory.logs, config.startBlock ≤ log.blockNumber →
      tailFrom config none head ≤ log.blockNumber) : Complete config (tailFrom config store.v3Cursor head) store := by
  intro log member started before
  cases stored : store.v3Cursor with
  | none =>
    rw [stored] at before
    exact absurd before (not_lt.mpr (safe stored log member started))
  | some c =>
    refine inv.done backfilled c stored log member started ?_
    rw [stored] at before
    have late : log.blockNumber < c - 120 := (lt_max_iff.mp before).resolve_left (not_lt.mpr started)
    omega

theorem tailV3Venue_spec {finalizedHead : Nat} (inv : Inv config store) (backfilled : store.v3Backfilled = true)
    (safe : store.v3Cursor = none → ∀ log ∈ config.factory.logs, config.startBlock ≤ log.blockNumber →
      tailFrom config none (max config.startBlock finalizedHead) ≤ log.blockNumber) {replies : List Reply} :
    Triple (· = ⟨store, replies⟩) (tailV3Venue config finalizedHead) (fun _ => Stored (Tailed config true store.v3Cursor))
      (Stored (Tailed config true store.v3Cursor)) := by
  unfold tailV3Venue
  refine triple_read_at ?_
  have start : Scanned config true store.v3Cursor (tailFrom config store.v3Cursor (max config.startBlock finalizedHead)) store :=
    ⟨inv, tailFrom_complete inv backfilled safe, Reached.refl _, backfilled⟩
  refine triple_bind (triple_weaken scanV3Windows_spec (stored_at start) (fun _ _ => id) ?_) fun fresh => ?_
  · rintro process ⟨lo, scanned⟩
    exact scanned.tailed
  · refine triple_bind (statement_spec ?_ fun store scanned => scanned.tailed) fun _ => triple_pure fun _ tailed => tailed
    intro store scanned
    have complete : Complete config (max config.startBlock finalizedHead + 1) store := scanned.complete.mono (le_max_right _ _)
    refine ⟨scanned.inv.advanced scanned.inv.sound (Grown.refl _) rfl fun c member => ?_, scanned.reached.nondecreasing, scanned.flag⟩
    cases member
    rcases nondecreasingBlock_cases store.v3Cursor (max config.startBlock finalizedHead) with old | new
    · exact .inl old
    · rw [new]
      exact .inr complete

theorem tailV3_spec {process : Process Store Reply} (inv : Inv config process.store) (backfilled : process.store.v3Backfilled = true)
    (safe : TailSafe config process.store (process.replies[0]?.bind Reply.blockNumber)) :
    Triple (· = process) (tailV3 config) (fun _ => Stored (Tailed config true process.store.v3Cursor))
      (Stored (Tailed config true process.store.v3Cursor)) := by
  unfold tailV3 getBlockNumber
  refine triple_await_at (fun _ => ⟨inv, Reached.refl _, backfilled⟩) fun reply rest block first told => ?_
  refine tailV3Venue_spec inv backfilled fun none log member started => safe none block ?_ log member started
  rw [first]
  change block ∈ reply.blockNumber
  cases read : reply.blockNumber with
  | none =>
    rw [read] at told
    cases told
  | some n =>
    rw [read] at told
    cases told
    rfl

def pageOf (config : Config) (cursor target : Nat) : List PoolCreated := (logsIn config cursor target).take PAGE

theorem logsIn_ordered {cursor target : Nat} :
    (logsIn config cursor target).Pairwise fun first second => first.blockNumber ≤ second.blockNumber :=
  config.factory.ordered.filter _

theorem mem_pageOf {cursor target : Nat} {log : PoolCreated} (member : log ∈ pageOf config cursor target) :
    log ∈ config.factory.logs ∧ cursor ≤ log.blockNumber ∧ log.blockNumber ≤ target :=
  mem_logsIn.mp (List.mem_of_mem_take member)

theorem le_last {logs : List PoolCreated} {last : PoolCreated}
    (ordered : logs.Pairwise fun first second => first.blockNumber ≤ second.blockNumber) (final : logs.getLast? = some last)
    {log : PoolCreated} (member : log ∈ logs) : log.blockNumber ≤ last.blockNumber := by
  obtain ⟨before, rfl⟩ := List.getLast?_eq_some_iff.mp final
  rcases List.mem_append.mp member with earlier | own
  · exact (List.pairwise_append.mp ordered).2.2 log earlier last (List.mem_singleton.mpr rfl)
  · exact (List.mem_singleton.mp own) ▸ le_refl _

theorem mem_page_of_lt {cursor target : Nat} {last log : PoolCreated} (final : (pageOf config cursor target).getLast? = some last)
    (member : log ∈ logsIn config cursor target) (before : log.blockNumber < last.blockNumber) : log ∈ pageOf config cursor target := by
  have ordered := @logsIn_ordered config cursor target
  rw [← List.take_append_drop PAGE (logsIn config cursor target)] at member ordered
  rcases List.mem_append.mp member with onPage | behind
  · exact onPage
  · have le := (List.pairwise_append.mp ordered).2.2 last (List.mem_of_getLast? final) log behind
    exact absurd before (not_lt.mpr le)

theorem short_page {cursor target : Nat} (short : (pageOf config cursor target).length < PAGE) :
    pageOf config cursor target = logsIn config cursor target := by
  unfold pageOf at short ⊢
  rw [List.length_take] at short
  exact List.take_of_length_le (by omega)

structure Paging (config : Config) (target cursor : Nat) (store : Store) : Prop where
  inv : Inv config store
  flag : store.v3Backfilled = false
  complete : Complete config cursor store
  stored : ∀ c ∈ store.v3Cursor, c ≤ cursor
  passed : target < cursor → Complete config (cursor + 1) store

theorem setPools_spec {cursor target : Nat} (sound : Sound config store.pools) :
    Sound config (setPools (pageOf config cursor target) store).pools ∧
      Grown store.pools (setPools (pageOf config cursor target) store).pools ∧
      ∀ log ∈ pageOf config cursor target, Cataloged (setPools (pageOf config cursor target) store) log :=
  insertLogs_spec sound fun _ member => (mem_pageOf member).1

theorem Paging.rows {target cursor : Nat} (paging : Paging config target cursor store) :
    Inv config (setPools (pageOf config cursor target) store) := by
  obtain ⟨sound, grown, _⟩ := @setPools_spec config store cursor target paging.inv.sound
  exact paging.inv.advanced sound grown rfl fun c member => .inl member

theorem Paging.upTo {target cursor : Nat} (paging : Paging config target cursor store) {last : PoolCreated}
    (final : (pageOf config cursor target).getLast? = some last) :
    Complete config last.blockNumber (setPools (pageOf config cursor target) store) := by
  obtain ⟨_, grown, own⟩ := @setPools_spec config store cursor target paging.inv.sound
  have within := (mem_pageOf (List.mem_of_getLast? final)).2.2
  intro log member started before
  rcases lt_or_ge log.blockNumber cursor with earlier | inside
  · exact grown _ _ (paging.complete log member started earlier)
  · exact own log (mem_page_of_lt final (mem_logsIn.mpr ⟨member, inside, before.le.trans within⟩) before)

theorem Paging.all {target cursor : Nat} (paging : Paging config target cursor store)
    (short : (pageOf config cursor target).length < PAGE) :
    Complete config (target + 1) (setPools (pageOf config cursor target) store) := by
  obtain ⟨_, grown, own⟩ := @setPools_spec config store cursor target paging.inv.sound
  intro log member started before
  rcases lt_or_ge log.blockNumber cursor with earlier | inside
  · exact grown _ _ (paging.complete log member started earlier)
  · refine own log ?_
    rw [short_page short]
    exact mem_logsIn.mpr ⟨member, inside, Nat.lt_succ_iff.mp before⟩

theorem Paging.next {target cursor : Nat} (paging : Paging config target cursor store) {last : PoolCreated}
    (final : (pageOf config cursor target).getLast? = some last) :
    Paging config target last.blockNumber (setCursor last.blockNumber (setPools (pageOf config cursor target) store)) := by
  have complete : Complete config last.blockNumber (setCursor last.blockNumber (setPools (pageOf config cursor target) store)) :=
    paging.upTo final
  constructor
  case inv =>
    refine ⟨paging.rows.sound, fun c member => ?_, fun backfilled => ?_⟩
    · cases member
      exact complete
    · exact absurd (paging.flag.symm.trans backfilled) (by decide)
  case flag => exact paging.flag
  case complete => exact complete
  case stored =>
    intro c member
    cases member
    exact le_refl _
  case passed =>
    intro beyond
    exact absurd (mem_pageOf (List.mem_of_getLast? final)).2.2 (not_le.mpr beyond)

structure Finishing (config : Config) (store : Store) : Prop where
  inv : Inv config store
  whole : ∀ c ∈ store.v3Cursor, Complete config (c + 1) store

theorem finish_spec {added : Nat} : Triple (Stored (Finishing config)) (finish added) (fun _ => Stored (Inv config)) (Stored (Inv config)) := by
  unfold finish
  refine triple_bind (statement_spec ?_ fun _ finishing => finishing.inv) fun _ => triple_pure fun _ inv => inv
  exact fun store finishing => ⟨finishing.inv.sound, finishing.inv.below, fun _ => finishing.whole⟩

theorem setCursor_finishing {flag : Bool} {before : Option Nat} {lo target : Nat} (reaches : target < lo)
    (scanned : Scanned config flag before lo store) : Finishing config (setCursor target store) := by
  have complete : Complete config (target + 1) (setCursor target store) := scanned.complete.mono reaches
  refine ⟨scanned.inv.advanced scanned.inv.sound (Grown.refl _) rfl fun c member => ?_, fun c member => ?_⟩
  · cases member
    exact .inr complete
  · cases member
    exact complete

theorem rpcRange_spec {cursor target added : Nat} {P : Store → Prop}
    (start : ∀ store, P store → Inv config store ∧ Complete config cursor store ∧ store.v3Backfilled = false) :
    Triple (Stored P)
      (do
        let fresh ← scanV3Windows config cursor target
        statement (setCursor target)
        finish (added + fresh.length))
      (fun _ => Stored (Inv config)) (Stored (Inv config)) := by
  have scanned : ∀ store, P store → Scanned config false none cursor store := by
    intro store holds
    obtain ⟨inv, complete, flag⟩ := start store holds
    exact ⟨inv, complete, fun c none => (Option.not_mem_none c none).elim, flag⟩
  refine triple_bind (triple_weaken scanV3Windows_spec (fun process => scanned process.store) (fun _ _ => id) ?_) fun fresh => ?_
  · rintro process ⟨lo, scanned⟩
    exact scanned.inv
  · refine triple_bind (statement_spec (fun store scanned => setCursor_finishing ?_ scanned) fun _ scanned => scanned.inv) fun _ => finish_spec
    exact lt_of_lt_of_le (Nat.lt_succ_self _) (le_max_right _ _)

theorem Paging.empty {target cursor : Nat} (paging : Paging config target cursor store)
    (none : (pageOf config cursor target).getLast? = none) : Finishing config store := by
  refine ⟨paging.inv, fun c member log listed started before => ?_⟩
  rcases lt_or_eq_of_le (paging.stored c member) with earlier | rfl
  · exact paging.complete log listed started (lt_of_lt_of_le before earlier)
  · rcases lt_or_ge target c with beyond | within
    · exact paging.passed beyond log listed started before
    · rcases lt_or_eq_of_le (Nat.lt_succ_iff.mp before) with earlier | own
      · exact paging.complete log listed started earlier
      · have empty := List.getLast?_eq_none_iff.mp none
        have short : (pageOf config c target).length < PAGE := by
          rw [empty]
          decide
        have inside : log ∈ logsIn config c target := mem_logsIn.mpr ⟨listed, own.ge, own.le.trans within⟩
        rw [← short_page short, empty] at inside
        cases inside

theorem blockscoutPages_spec {target cursor rounds flakes added : Nat} :
    Triple (Stored (Paging config target cursor)) (blockscoutPages config target rounds cursor flakes added)
      (fun _ => Stored (Inv config)) (Stored (Inv config)) := by
  induction rounds generalizing cursor flakes added with
  | zero => exact triple_fail fun _ paging => paging.inv
  | succ rounds ih =>
    unfold blockscoutPages
    refine triple_await_bind (fun _ paging => paging.inv) fun answered => ?_
    split
    · dsimp only
      split
      · rename_i none
        exact triple_weaken finish_spec (fun _ paging => paging.empty none) (fun _ _ => id) fun _ => id
      · rename_i last final
        refine triple_each fun process paging => triple_read_at ?_
        refine triple_bind (triple_weaken (statement_at paging.inv) (stored_at rfl) (fun _ _ => id) fun _ => id) fun _ => ?_
        refine triple_bind (statement_at paging.rows) fun _ => ?_
        have next := paging.next final
        split
        · rename_i short
          refine triple_weaken finish_spec (stored_of ⟨next.inv, fun c member => ?_⟩) (fun _ _ => id) fun _ => id
          cases member
          have whole : Complete config (target + 1) (setPools (pageOf config cursor target) process.store) := paging.all short
          exact whole.mono (Nat.succ_le_succ (mem_pageOf (List.mem_of_getLast? final)).2.2)
        · exact triple_weaken ih (stored_of next) (fun _ _ => id) fun _ => id
    · split
      · exact rpcRange_spec fun store paging => ⟨paging.inv, paging.complete, paging.flag⟩
      · exact ih

def Sparse (config : Config) (cursor target : Nat) : Prop :=
  ∀ block, cursor ≤ block → block ≤ target → config.factory.logs.countP (fun log => log.blockNumber = block) < PAGE

theorem Sparse.advances {cursor target : Nat} (sparse : Sparse config cursor target) {last : PoolCreated}
    (final : (pageOf config cursor target).getLast? = some last) (full : ¬ (pageOf config cursor target).length < PAGE) :
    cursor < last.blockNumber := by
  have member := mem_pageOf (List.mem_of_getLast? final)
  refine lt_of_le_of_ne member.2.1 fun same => ?_
  have own : ∀ log ∈ pageOf config cursor target, log.blockNumber = cursor := by
    intro log inside
    have le := le_last (logsIn_ordered.sublist (List.take_sublist _ _)) final inside
    exact le_antisymm (same ▸ le) (mem_pageOf inside).2.1
  have all : (pageOf config cursor target).countP (fun log => log.blockNumber = cursor) = (pageOf config cursor target).length :=
    List.countP_eq_length.mpr fun log inside => decide_eq_true (own log inside)
  have part : (pageOf config cursor target).Sublist config.factory.logs := (List.take_sublist _ _).trans List.filter_sublist
  have few := sparse cursor (le_refl _) (same ▸ member.2.2)
  have bound := part.countP_le (p := fun log => log.blockNumber = cursor)
  omega

theorem statement_avoids {update : Store → Store} : Avoids .unended (statement update) :=
  avoids_bind (avoids_await (by decide) fun _ same => by cases same) fun _ => avoids_write

theorem finish_avoids {added : Nat} : Avoids .unended (finish added) := avoids_bind statement_avoids fun _ => avoids_pure _

theorem rpcRange_avoids {cursor target added : Nat} :
    Avoids .unended (do
      let fresh ← scanV3Windows config cursor target
      statement (setCursor target)
      finish (added + fresh.length)) :=
  avoids_bind scan_avoids fun _ => avoids_bind statement_avoids fun _ => finish_avoids

theorem blockscoutPages_avoids {cursor target flakes added rounds : Nat} (sparse : Sparse config cursor target) (few : flakes < 6)
    (enough : 6 * (target + 2 - cursor) + (6 - flakes) < rounds) :
    Avoids .unended (blockscoutPages config target rounds cursor flakes added) := by
  induction rounds generalizing cursor flakes added with
  | zero => omega
  | succ rounds ih =>
    unfold blockscoutPages
    refine avoids_bind (avoids_await (by decide) fun _ same => by cases same) fun answered => ?_
    split
    · dsimp only
      split
      · exact finish_avoids
      · rename_i last final
        refine avoids_bind avoids_read fun process => avoids_bind statement_avoids fun _ => avoids_bind statement_avoids fun _ => ?_
        split
        · exact finish_avoids
        · rename_i full
          have ahead := sparse.advances final full
          have within := (mem_pageOf (List.mem_of_getLast? final)).2.2
          exact ih (fun block from_ => sparse block (ahead.le.trans from_)) (by omega) (by omega)
    · split
      · exact rpcRange_avoids
      · exact ih sparse (by omega) (by omega)

theorem run_statement {update : Store → Store} {reply : Reply} {rest : List Reply} :
    (statement update).run ⟨store, reply :: rest⟩ = (.ok (), ⟨update store, rest⟩) := rfl

/-- What a Blockscout bootstrap must find: its target not behind a cursor whose block is unfinished, and a sparse range. -/
structure BootSafe (config : Config) (store : Store) (target : Nat) : Prop where
  ahead : ∀ c ∈ store.v3Cursor, target < c → Complete config (c + 1) store
  sparse : Sparse config (firstCursor config store.v3Cursor) target

def Safe (config : Config) (store : Store) : Call → Prop
  | .boot useRpcBackfill replies =>
    (store.v3Backfilled = true → TailSafe config store (replies[2]?.bind Reply.blockNumber)) ∧
      (store.v3Backfilled = false → useRpcBackfill = false → ∀ block ∈ replies[0]?.bind Reply.blockNumber,
        BootSafe config store (targetBlock config block))
  | .tick replies => store.v3Backfilled = true → TailSafe config store (replies[0]?.bind Reply.blockNumber)

structure Left (config : Config) (before : Store) (store : Store) : Prop where
  inv : Inv config store
  reached : before.v3Backfilled = true → Reached before.v3Cursor store.v3Cursor

theorem firstCursor_complete (inv : Inv config store) : Complete config (firstCursor config store.v3Cursor) store := by
  intro log member started before
  cases stored : store.v3Cursor with
  | none =>
    rw [stored] at before
    exact absurd before (not_lt.mpr (by simpa [firstCursor] using started))
  | some c =>
    rw [stored] at before
    exact inv.below c stored log member started ((lt_max_iff.mp before).resolve_left (not_lt.mpr started))

theorem le_firstCursor {stored : Option Nat} : ∀ c ∈ stored, c ≤ firstCursor config stored := by
  rintro c rfl
  exact le_max_right _ _

theorem BootSafe.paging {target : Nat} (safe : BootSafe config store target) (reaches : config.startBlock ≤ target) (inv : Inv config store)
    (flag : store.v3Backfilled = false) : Paging config target (firstCursor config store.v3Cursor) store := by
  refine ⟨inv, flag, firstCursor_complete inv, le_firstCursor, fun beyond => ?_⟩
  cases stored : store.v3Cursor with
  | none =>
    rw [stored] at beyond
    exact absurd beyond (not_lt.mpr (by simpa [firstCursor] using reaches))
  | some c =>
    rw [stored] at beyond
    have behind : target < c := (lt_max_iff.mp beyond).resolve_left (not_lt.mpr reaches)
    have same : firstCursor config (some c) = c := max_eq_right (reaches.trans behind.le)
    rw [same]
    exact safe.ahead c stored behind

theorem triple_statement_at {process : Process Store Reply} {update : Store → Store} {α : Type} {f : Unit → Sync α}
    {Q : α → Process Store Reply → Prop} {E : Process Store Reply → Prop} (stops : ∀ replies, E ⟨process.store, replies⟩)
    (next : ∀ reply rest, process.replies = reply :: rest → Triple (· = ⟨update process.store, rest⟩) (f ()) Q E) :
    Triple (· = process) (statement update >>= f) Q E := by
  obtain ⟨store, replies⟩ := process
  cases replies with
  | nil =>
    rintro _ rfl
    exact stops []
  | cons reply rest =>
    rintro _ rfl
    rw [run_bind_ok run_statement]
    exact next reply rest rfl _ rfl

theorem backfillV3_spec {process : Process Store Reply} {useRpcBackfill : Bool} {rounds : Nat} (inv : Inv config process.store)
    (safe : Safe config process.store (.boot useRpcBackfill process.replies)) :
    Triple (· = process) (backfillV3 config useRpcBackfill rounds) (fun _ => Stored (Left config process.store))
      (Stored (Left config process.store)) := by
  unfold backfillV3 getBlockNumber
  refine triple_await_at (fun _ => ⟨inv, fun _ => Reached.refl _⟩) fun reply rest block first told => ?_
  have read : block ∈ reply.blockNumber := by
    cases read : reply.blockNumber with
    | none =>
      rw [read] at told
      cases told
    | some n =>
      rw [read] at told
      cases told
      rfl
  have inv' : Inv config { process.store with v3TargetBlock := some (targetBlock config block) } := ⟨inv.sound, inv.below, inv.done⟩
  refine triple_statement_at (fun _ => ⟨inv, fun _ => Reached.refl _⟩) fun second more next => triple_read_at ?_
  have started : config.startBlock ≤ targetBlock config block := le_max_left _ _
  dsimp only at next ⊢
  subst next
  split
  · rename_i backfilled
    have tail : TailSafe config process.store (more[0]?.bind Reply.blockNumber) := by
      have whole := safe.1 backfilled
      rw [first] at whole
      exact whole
    have spec := @tailV3_spec config ⟨{ process.store with v3TargetBlock := some (targetBlock config block) }, more⟩ inv' backfilled tail
    have weaker : ∀ store, Tailed config true process.store.v3Cursor store → Left config process.store store := fun _ tailed =>
      ⟨tailed.inv, fun _ => tailed.reached⟩
    exact triple_bind (triple_weaken spec (fun _ => id) (fun _ _ => weaker _) fun _ => weaker _) fun fresh => triple_pure fun _ left => left
  · rename_i unfilled
    have flag : process.store.v3Backfilled = false := Bool.eq_false_iff.mpr unfilled
    have whole : ∀ store, Inv config store → Left config process.store store := fun store inv =>
      ⟨inv, fun backfilled => absurd backfilled unfilled⟩
    split
    · have range := @rpcRange_spec config (firstCursor config process.store.v3Cursor) (targetBlock config block) 0
        (· = { process.store with v3TargetBlock := some (targetBlock config block) }) (by
          rintro _ rfl
          exact ⟨inv', firstCursor_complete inv, flag⟩)
      simp only [Nat.zero_add] at range
      exact triple_weaken range (stored_at rfl) (fun _ _ => whole _) fun _ => whole _
    · rename_i explorer
      have boot : BootSafe config process.store (targetBlock config block) := by
        refine safe.2 flag (Bool.eq_false_iff.mpr explorer) block ?_
        rw [first]
        exact read
      have paging := boot.paging started inv flag
      have paging' : Paging config (targetBlock config block) (firstCursor config process.store.v3Cursor)
          { process.store with v3TargetBlock := some (targetBlock config block) } :=
        ⟨inv', paging.flag, paging.complete, paging.stored, paging.passed⟩
      exact triple_weaken blockscoutPages_spec (stored_at paging') (fun _ _ => whole _) fun _ => whole _

theorem step_left {call : Call} (inv : Inv config store) (safe : Safe config store call) : Left config store (step config store call) := by
  cases call with
  | boot useRpcBackfill replies =>
    exact left_keeps (triple_weaken (@backfillV3_spec config ⟨store, replies⟩ useRpcBackfill replies.length inv safe) (fun _ => id)
      (fun _ _ => id) fun _ => id) rfl
  | tick replies =>
    unfold step
    dsimp only
    split
    · rename_i backfilled
      have tailed := left_keeps (@tailV3_spec config ⟨store, replies⟩ inv backfilled (safe backfilled)) rfl
      exact ⟨tailed.inv, fun _ => tailed.reached⟩
    · exact ⟨inv, fun _ => Reached.refl _⟩

def Covered (config : Config) (store : Store) : Prop :=
  store.v3Backfilled = true → ∀ c ∈ store.v3Cursor, ∀ log ∈ config.factory.logs, config.startBlock ≤ log.blockNumber →
    log.blockNumber ≤ c → Cataloged store log

theorem Inv.covered (inv : Inv config store) : Covered config store := fun backfilled c member log listed started before =>
  inv.done backfilled c member log listed started (Nat.lt_succ_of_le before)

def Ends (config : Config) (store : Store) (useRpcBackfill : Bool) (block : Nat) : Prop :=
  ∃ rounds, ∀ reply rest, reply.blockNumber = some block →
    ((backfillV3 config useRpcBackfill rounds).run ⟨store, reply :: rest⟩).1 ≠ .error .unended

theorem run_getBlockNumber {reply : Reply} {rest : List Reply} {block : Nat} (told : reply.blockNumber = some block) :
    getBlockNumber.run ⟨store, reply :: rest⟩ = (.ok block, ⟨store, rest⟩) := by
  have answered : ∀ answer : Reply → Except ScanFailure Nat, (await .stopped answer).run ⟨store, reply :: rest⟩ = (answer reply, ⟨store, rest⟩) :=
    fun _ => rfl
  rw [getBlockNumber, answered, told]

theorem getBlockNumber_avoids : Avoids .unended getBlockNumber := by
  refine avoids_await (by decide) fun reply same => ?_
  split at same <;> cases same

theorem tailV3_avoids : Avoids .unended (tailV3 config) :=
  avoids_bind getBlockNumber_avoids fun _ => avoids_bind avoids_read fun _ => avoids_bind scan_avoids fun _ =>
    avoids_bind statement_avoids fun _ => avoids_pure _

theorem backfillV3_run {useRpcBackfill : Bool} {rounds block : Nat} {reply second : Reply} {rest : List Reply}
    (told : reply.blockNumber = some block) :
    (backfillV3 config useRpcBackfill rounds).run ⟨store, reply :: second :: rest⟩ =
      (if store.v3Backfilled then do
          let fresh ← tailV3 config
          pure fresh.length
        else if useRpcBackfill then do
          let fresh ← scanV3Windows config (firstCursor config store.v3Cursor) (targetBlock config block)
          statement (setCursor (targetBlock config block))
          finish fresh.length
        else blockscoutPages config (targetBlock config block) rounds (firstCursor config store.v3Cursor) 0 0 : Sync Nat).run
        ⟨{ store with v3TargetBlock := some (targetBlock config block) }, rest⟩ := by
  unfold backfillV3
  rw [run_bind_ok (run_getBlockNumber told)]
  dsimp only
  rw [run_bind_ok run_statement, run_bind_ok (run_read _)]

theorem ends_of_sparse {useRpcBackfill : Bool} {block : Nat} (sparse : store.v3Backfilled = false → useRpcBackfill = false →
    Sparse config (firstCursor config store.v3Cursor) (targetBlock config block)) : Ends config store useRpcBackfill block := by
  refine ⟨6 * (targetBlock config block + 2 - firstCursor config store.v3Cursor) + 7, fun reply rest told => ?_⟩
  cases rest with
  | nil =>
    unfold backfillV3
    rw [run_bind_ok (run_getBlockNumber told)]
    intro same
    cases same
  | cons second rest =>
    rw [backfillV3_run told]
    split
    · exact avoids_bind tailV3_avoids (fun _ => avoids_pure _) _
    · rename_i unfilled
      split
      · exact avoids_bind scan_avoids (fun _ => avoids_bind statement_avoids fun _ => finish_avoids) _
      · rename_i explorer
        exact blockscoutPages_avoids (sparse (Bool.eq_false_iff.mpr unfilled) (Bool.eq_false_iff.mpr explorer)) (by decide) (by omega) _

structure Run (config : Config) where
  earlier : List Call
  last : Call
  safe : Trace.Along (step config) (Safe config) Store.fresh (earlier ++ [last])

def Run.before (run : Run config) : Store := Trace.run (step config) Store.fresh run.earlier

def Run.after (run : Run config) : Store := step config run.before run.last

structure Upheld (config : Config) (before : Store) (call : Call) (after : Store) : Prop where
  covered : Covered config after
  tail : before.v3Backfilled = true → Reached before.v3Cursor after.v3Cursor
  ends : ∀ useRpcBackfill replies, call = .boot useRpcBackfill replies → ∀ block ∈ replies[0]?.bind Reply.blockNumber,
    Ends config before useRpcBackfill block

theorem backfillV3_upheld (config : Config) (run : Run config) : Upheld config run.before run.last run.after := by
  obtain ⟨earlier, last⟩ := Trace.along_append.mp run.safe
  have kept : ∀ store call, Inv config store → Safe config store call → Inv config (step config store call) := fun _ _ inv safe =>
    (step_left inv safe).inv
  have inv : Inv config run.before := Trace.run_keeps kept Inv.fresh earlier
  have left := step_left inv last.1
  refine ⟨left.inv.covered, left.reached, fun useRpcBackfill replies same block read => ?_⟩
  have safe := last.1
  rw [same] at safe
  exact ends_of_sparse fun unfilled explorer => (safe.2 unfilled explorer block read).sparse

def lonely : Config := ⟨⟨[⟨200, 1, 2, 500, 10, 7⟩], by decide, by decide⟩, 10, 0, 9001, 1⟩

/-- The factory's first pool is created after the bootstrap has completed without a cursor, and the tail begins behind it. -/
theorem lonely_pool_skipped : ¬ ∀ calls : List Call, Covered lonely (Trace.run (step lonely) Store.fresh calls) := by
  intro all
  have covered := all [.boot false (List.replicate 4 ⟨some 100, .fulfilled, true⟩), .tick (List.replicate 4 ⟨some 5000, .fulfilled, true⟩)]
  exact absurd (covered (by decide) 5000 (by decide) _ List.mem_cons_self (by decide) (by decide)) (by decide)

end LpTerminal.Catalog.V3Backfill
