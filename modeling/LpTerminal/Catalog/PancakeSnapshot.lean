import LpTerminal.Catalog.Evolution
import LpTerminal.Catalog.Triggers
import LpTerminal.Lib.Durable
import LpTerminal.Solver.Wire

/-!
The import of the Pancake V2 directory: a pinned factory count, pages of its log, a checkpoint committed with every page, and
the publication. While a call awaits, other tasks may write the catalog.
-/

namespace LpTerminal.Catalog

/-- `PancakeV2SnapshotError`, `PancakeV2PageTokenRejectedError`, and everything else, a crash included. -/
inductive ImportError
  | snapshot (message : String)
  | rejected (message : String)
  | transport (message : String)
deriving DecidableEq

structure Target where
  block : Nat
  blockHash : Digest
  poolCount : Nat
deriving DecidableEq

structure CatalogTarget extends Target where
  catalogGeneration : Nat
deriving DecidableEq

structure Position where
  block : Nat
  transaction : Nat
  log : Nat
deriving DecidableEq

/-- The `pancake_v2_snapshot_import_…` keys as they are stored; the empty token is no token. -/
structure ImportRow where
  target : CatalogTarget
  nextIndex : Nat
  pageToken : String
  lastPosition : Option Position
deriving DecidableEq

structure PancakeKeys where
  complete : Bool
  published : Option CatalogTarget
  /-- Absent where the import source is empty: its keys are cleared together. -/
  importRow : Option ImportRow
  cursor : Option Nat
  factoryCount : Option Nat

structure PancakeStore where
  db : Database
  keys : PancakeKeys

def PancakeStore.fresh : PancakeStore := ⟨Database.fresh, ⟨false, none, none, none, none⟩⟩

structure ImportCheckpoint where
  target : CatalogTarget
  nextIndex : Nat
  pageToken : Option String
  lastPosition : Option Position

structure PairLog where
  address : Address
  removed : Bool
  blockNumber : Nat
  transactionIndex : Nat
  logIndex : Nat
  topic0 : Digest
  token0 : Address
  token1 : Address
  pair : Address
  ordinal : Nat

structure PageBody where
  logs : List PairLog
  nextPageToken : Option String

structure DecodedPair where
  address : Address
  token0 : Address
  token1 : Address
  createdBlock : Nat
  pairIndex : Nat
  position : Position

/-- An answer from outside, and the transactions other tasks committed while it was awaited. -/
structure Answer (α : Type) where
  meanwhile : List (List CatalogOp)
  value : Except ImportError α

structure PinAnswers where
  blockHash : Answer Digest
  factoryCount : Answer Nat

/-- One call with the answers it meets; where the pages end, the process stopped. -/
structure Call where
  pageSize : Nat
  freshLimit : Nat
  finalityBlocks : Nat
  /-- Asked of a published or resumed target before anything else. -/
  resumed : PinAnswers
  head : Answer Nat
  firstHash : Answer Digest
  newCount : Answer Nat
  secondHash : Answer Digest
  pages : List (Answer PageBody)
  beforePublish : PinAnswers

structure SnapshotOutcome where
  added : Nat
  fresh : List Address
  snapshotBlock : Nat
  snapshotPoolCount : Nat
  bootstrapped : Bool

structure PancakeConfig where
  factory : Address
  pairCreatedTopic : Digest

section Decode

def demand (condition : Prop) [Decidable condition] (message : String) : Except ImportError Unit :=
  Fallible.demand condition (.snapshot message)

def positiveInteger (value : Nat) (label : String) : Except ImportError Unit :=
  demand (0 < value ∧ value ≤ maxSafeInteger) s!"{label} is invalid"

def targetFrom (target : Target) (label : String) : Except ImportError Unit := do
  positiveInteger target.block s!"{label} block"
  positiveInteger target.poolCount s!"{label} pool count"

/-- `publishedTarget`. -/
def publishedTarget (keys : PancakeKeys) : Except ImportError (Option CatalogTarget) :=
  if keys.complete then
    match keys.published with
    | none => .error (.snapshot "Pancake V2 published snapshot source is invalid")
    | some target => do
      targetFrom target.toTarget "Pancake V2 published snapshot"
      return some target
  else .ok none

/-- `?.trim() || null`. -/
def storedToken (token : String) : Option String :=
  match Solver.trim token.toList with
  | [] => none
  | text => some (String.ofList text)

def decodePosition (position : Option Position) : Except ImportError Unit :=
  demand (∀ found ∈ position, found.block ≤ maxSafeInteger ∧ found.transaction ≤ maxSafeInteger ∧ found.log ≤ maxSafeInteger)
    "checkpoint position is invalid"

def checkRow (row : ImportRow) : Except ImportError Unit := do
  targetFrom row.target.toTarget "Pancake V2 snapshot checkpoint"
  demand (row.nextIndex ≤ row.target.poolCount) "Pancake V2 snapshot checkpoint is ahead of its target"
  demand (¬ (0 < row.nextIndex ∧ row.nextIndex < row.target.poolCount ∧ storedToken row.pageToken = none))
    "Pancake V2 snapshot checkpoint is missing its page token"
  demand (¬ ((row.nextIndex = 0 ∨ row.nextIndex = row.target.poolCount) ∧ storedToken row.pageToken ≠ none))
    "Pancake V2 snapshot checkpoint has an unexpected page token"
  decodePosition row.lastPosition
  demand (row.nextIndex = 0 ↔ row.lastPosition = none)
    "Pancake V2 snapshot checkpoint position conflicts with its index"

def importCheckpoint (keys : PancakeKeys) : Except ImportError (Option ImportCheckpoint) :=
  match keys.importRow with
  | none => .ok none
  | some row => do
    checkRow row
    return some { target := row.target, nextIndex := row.nextIndex, pageToken := storedToken row.pageToken,
                  lastPosition := row.lastPosition }

end Decode

section Catalog

def pancakePools (db : Database) : List Pool := db.pools.rows.filter fun pool => pool.proto = .pancakev2

structure PairIndexStats where
  count : Nat
  min : Option Nat
  max : Option Nat
  distinct : Nat
  missing : Nat

/-- `v2PairIndexStats('pancakev2')`: SQL's aggregates skip a null index. -/
def pairIndexStats (db : Database) : PairIndexStats :=
  let indices := (pancakePools db).filterMap Pool.pairIndex
  { count := (pancakePools db).length, min := indices.min?, max := indices.max?, distinct := indices.dedup.length,
    missing := (pancakePools db).countP fun pool => pool.pairIndex.isNone }

def assertPairIndexStats (stats : PairIndexStats) (minimumCount : Nat) (label : String) : Except ImportError Nat := do
  demand (minimumCount ≤ stats.count ∧ stats.min = some 0 ∧ stats.max.map (· + 1) = some stats.count ∧
      stats.distinct = stats.count ∧ stats.missing = 0)
    s!"{label} pair-index coverage is incomplete"
  return stats.count

def pairPool (row : DecodedPair) : Pool :=
  { address := row.address, proto := .pancakev2, token0 := row.token0, token1 := row.token1, feePpm := 2500,
    createdBlock := some row.createdBlock, pairIndex := some row.pairIndex, snapshotGeneration := none, catalogSeq := none }

def assertExistingPairIdentity (existing : Pool) (row : DecodedPair) : Except ImportError Unit :=
  demand (existing.proto = .pancakev2 ∧ existing.token0 = row.token0 ∧ existing.token1 = row.token1 ∧
      existing.feePpm = 2500 ∧ existing.pairIndex = some row.pairIndex ∧
      (existing.createdBlock = none ∨ existing.createdBlock = some row.createdBlock))
    s!"existing pool {row.address} conflicts with the Pancake V2 snapshot"

/-- The database, the count of new rows and the first of their addresses. -/
structure Persisted where
  db : Database
  added : Nat
  fresh : List Address

def persistPair (freshLimit : Nat) (s : Persisted) (row : DecodedPair) : Except ImportError Persisted :=
  if poolIsNew (pairPool row) s.db then
    .ok { db := insertPool (pairPool row) s.db, added := s.added + 1,
          fresh := if s.fresh.length < freshLimit then s.fresh ++ [row.address] else s.fresh }
  else
    match s.db.pools.get? row.address with
    | none => .error (.snapshot s!"failed to persist Pancake V2 pair {row.address}")
    | some existing => do
      assertExistingPairIdentity existing row
      return s

end Catalog

section Pages

variable (config : PancakeConfig)

def decodePairCreated (target : Target) (expectedPairIndex : Nat) (raw : PairLog) : Except ImportError DecodedPair := do
  demand (raw.address = config.factory) "Ankr returned a log from the wrong Pancake V2 factory"
  demand (raw.removed = false) "Ankr returned a removed Pancake V2 log"
  demand (raw.blockNumber ≤ maxSafeInteger) "Pancake V2 log block number is too large"
  demand (raw.blockNumber ≤ target.block) "Ankr returned a Pancake V2 log after the pinned target block"
  demand (raw.transactionIndex ≤ maxSafeInteger) "Pancake V2 log transaction index is too large"
  demand (raw.logIndex ≤ maxSafeInteger) "Pancake V2 log index is too large"
  demand (raw.topic0 = config.pairCreatedTopic) "Ankr returned the wrong Pancake V2 event signature"
  demand (0 < raw.token0 ∧ 0 < raw.token1) "Pancake V2 token is invalid"
  demand (raw.token0 < raw.token1) "Ankr returned a non-canonical Pancake V2 token pair"
  demand (0 < raw.pair) "Pancake V2 pair is invalid"
  demand (raw.ordinal ≤ maxSafeInteger) "Ankr returned an oversized Pancake V2 PairCreated ordinal"
  demand (raw.ordinal = expectedPairIndex + 1)
    s!"Pancake V2 PairCreated ordinal is not contiguous: expected {expectedPairIndex + 1}, received {raw.ordinal}"
  demand (raw.ordinal ≤ target.poolCount) "Ankr returned a Pancake V2 PairCreated ordinal outside the target count"
  return { address := raw.pair, token0 := raw.token0, token1 := raw.token1, createdBlock := raw.blockNumber,
           pairIndex := expectedPairIndex, position := ⟨raw.blockNumber, raw.transactionIndex, raw.logIndex⟩ }

/-- `comparePosition(left, right) > 0`. -/
def Position.after (left right : Position) : Bool :=
  right.block < left.block || right.block = left.block &&
    (right.transaction < left.transaction || right.transaction = left.transaction && right.log < left.log)

structure Decoding where
  rows : List DecodedPair
  previous : Option Position

def decodeLog (target : Target) (nextIndex : Nat) (s : Decoding) (raw : PairLog) : Except ImportError Decoding := do
  let row ← decodePairCreated config target (nextIndex + s.rows.length) raw
  demand (∀ previous ∈ s.previous, row.position.after previous = true) "Ankr returned out-of-order Pancake V2 logs"
  demand (row.address ∉ s.rows.map DecodedPair.address) "Ankr returned a duplicate Pancake V2 pair in one page"
  return { rows := s.rows ++ [row], previous := some row.position }

structure ImportState where
  nextIndex : Nat
  pageToken : Option String
  lastPosition : Option Position
  replayed : Bool
  added : Nat
  fresh : List Address
  seenTokens : List String

/-- `typeof token === 'string' && token ? token : null`. -/
def pageTokenOf (body : PageBody) : Option String := body.nextPageToken.filter (· ≠ "")

def checkPageBody (pageSize : Nat) (s : ImportState) (body : PageBody) : Except ImportError Unit := do
  demand (body.logs.length ≤ pageSize) "Ankr Advanced API returned an oversized log page"
  demand (body.logs ≠ []) "Ankr Advanced API returned an empty non-final Pancake V2 page"
  demand (pageTokenOf body = none ∨ pageTokenOf body ≠ s.pageToken) "Ankr Advanced API repeated a Pancake V2 page token"
  demand (∀ token ∈ pageTokenOf body, token ∉ s.seenTokens) "Ankr Advanced API cycled a Pancake V2 page token"

def decodePage (target : Target) (s : ImportState) (body : PageBody) : Except ImportError Decoding := do
  let decoded ← body.logs.foldlM (decodeLog config target s.nextIndex) ⟨[], s.lastPosition⟩
  let nextProcessed := s.nextIndex + decoded.rows.length
  demand (nextProcessed ≤ target.poolCount) "Ankr returned more Pancake V2 events than the pinned factory count"
  demand (¬ (nextProcessed < target.poolCount ∧ pageTokenOf body = none))
    "Ankr Pancake V2 snapshot ended before the pinned factory count"
  demand (¬ (nextProcessed = target.poolCount ∧ pageTokenOf body ≠ none))
    "Ankr Pancake V2 snapshot has extra pages after the pinned factory count"
  return decoded

def commitPage (freshLimit : Nat) (s : ImportState) (decoded : Decoding) (token : Option String) (store : PancakeStore) :
    Except ImportError (PancakeStore × Persisted) := do
  let persisted ← decoded.rows.foldlM (persistPair freshLimit) ⟨store.db, s.added, s.fresh⟩
  return (
    { db := persisted.db
      keys := { store.keys with importRow := store.keys.importRow.map fun row =>
        { row with nextIndex := s.nextIndex + decoded.rows.length, pageToken := token.getD "", lastPosition := decoded.previous } } },
    persisted)

end Pages

section Writes

def writeCheckpointValues (target : Target) (catalogGeneration : Nat) (keys : PancakeKeys) : PancakeKeys :=
  { keys with
    complete := false
    importRow := some { target := { target with catalogGeneration := catalogGeneration }, nextIndex := 0, pageToken := "",
                        lastPosition := none } }

def initializeCheckpoint (target : Target) (store : PancakeStore) : PancakeStore :=
  { store with keys := writeCheckpointValues target store.db.clock.pancakeV2Generation store.keys }

def clearImportGeneration (store : PancakeStore) : PancakeStore := { store with keys := { store.keys with importRow := none } }

def unpublish (store : PancakeStore) : PancakeStore :=
  { store with keys := { store.keys with complete := false, importRow := none } }

def restartCheckpoint (target : CatalogTarget) (store : PancakeStore) : PancakeStore :=
  { store with keys := { store.keys with importRow := store.keys.importRow.map fun row =>
    { row with nextIndex := 0, pageToken := "", lastPosition := none,
               target := { row.target with catalogGeneration := target.catalogGeneration } } } }

def publishPancake (target : CatalogTarget) (store : PancakeStore) : Except ImportError (PancakeStore × Bool) :=
  if store.db.clock.pancakeV2Generation ≠ target.catalogGeneration then
    .ok ({ store with keys := writeCheckpointValues target.toTarget store.db.clock.pancakeV2Generation store.keys }, true)
  else do
    let catalogCount ← assertPairIndexStats (pairIndexStats store.db) target.poolCount "Pancake V2 snapshot"
    return (
      { store with keys := {
          complete := true
          published := some { target with catalogGeneration := store.db.clock.pancakeV2Generation }
          importRow := none
          cursor := some catalogCount
          factoryCount := some (match store.keys.factoryCount with
            | some previous => if catalogCount ≤ previous ∧ previous ≤ maxSafeInteger then previous else catalogCount
            | none => catalogCount) } },
      false)

end Writes

section Ensure

variable (config : PancakeConfig)

abbrev Import := Durable ImportError PancakeStore

def await {α : Type} (answer : Answer α) : Import α := do
  Durable.write fun store => { store with db := answer.meanwhile.foldl transact store.db }
  Durable.reply answer.value

/-- `catch (error) { if (error instanceof PancakeV2SnapshotError) cleanup(); throw error }`. -/
def repairing {α : Type} (cleanup : PancakeStore → PancakeStore) (m : Import α) : Import α := ⟨fun store =>
  match m.run store with
  | (.error (.snapshot message), store') => (.error (.snapshot message), cleanup store')
  | outcome => outcome⟩

def assertPinnedTarget (answers : PinAnswers) (target : Target) (label : String) : Import Unit := do
  let canonicalHash ← await answers.blockHash
  Durable.reply (demand (canonicalHash = target.blockHash) s!"{label} block hash no longer matches canonical RPC")
  let canonicalCount ← await answers.factoryCount
  Durable.reply (positiveInteger canonicalCount s!"{label} canonical factory count")
  Durable.reply (demand (canonicalCount = target.poolCount) s!"{label} factory count no longer matches canonical RPC")

def pinNewTarget (call : Call) : Import Target := do
  let head ← await call.head
  Durable.reply (positiveInteger head "BSC chain head")
  Durable.reply (demand (call.finalityBlocks < head) "Pancake V2 finalized snapshot target is invalid")
  let firstHash ← await call.firstHash
  let poolCount ← await call.newCount
  Durable.reply (positiveInteger poolCount "Pancake V2 snapshot target factory count")
  let secondHash ← await call.secondHash
  Durable.reply (demand (firstHash = secondHash) "Pancake V2 snapshot target changed while it was being pinned")
  return { block := head - call.finalityBlocks, blockHash := firstHash, poolCount := poolCount }

def revalidate (call : Call) (published : CatalogTarget) : Import SnapshotOutcome := do
  repairing unpublish (assertPinnedTarget call.resumed published.toTarget "Pancake V2 published snapshot")
  let store ← Durable.read
  if store.db.clock.pancakeV2Generation ≠ published.catalogGeneration then
    Durable.write (initializeCheckpoint published.toTarget)
    Durable.fail (.snapshot "Pancake V2 published snapshot catalog generation changed")
  else
    let _ ← repairing (initializeCheckpoint published.toTarget)
      (Durable.reply (assertPairIndexStats (pairIndexStats store.db) published.poolCount "Pancake V2 published snapshot"))
    Durable.write clearImportGeneration
    return { added := 0, fresh := [], snapshotBlock := published.block, snapshotPoolCount := published.poolCount,
             bootstrapped := false }

def restartIncomplete (checkpoint : ImportCheckpoint) (store : PancakeStore) : PancakeStore × ImportCheckpoint :=
  if checkpoint.nextIndex = checkpoint.target.poolCount then
    match assertPairIndexStats (pairIndexStats store.db) checkpoint.target.poolCount "Pancake V2 completed snapshot checkpoint" with
    | .ok _ => (store, checkpoint)
    | .error _ =>
      (restartCheckpoint checkpoint.target store, { checkpoint with nextIndex := 0, pageToken := none, lastPosition := none })
  else (store, checkpoint)

def resumeCheckpoint (call : Call) (checkpoint : ImportCheckpoint) : Import ImportCheckpoint := do
  repairing clearImportGeneration
    (assertPinnedTarget call.resumed checkpoint.target.toTarget "Pancake V2 snapshot checkpoint")
  let store ← Durable.read
  if store.db.clock.pancakeV2Generation ≠ checkpoint.target.catalogGeneration then
    Durable.write (initializeCheckpoint checkpoint.target.toTarget)
    Durable.fail (.snapshot "Pancake V2 snapshot catalog changed during import; checkpoint restarted")
  else
    Durable.write fun _ => (restartIncomplete checkpoint store).1
    return (restartIncomplete checkpoint store).2

def beginCheckpoint (call : Call) : Import ImportCheckpoint := do
  let target ← pinNewTarget call
  let store ← Durable.read
  Durable.write (initializeCheckpoint target)
  return { target := { target with catalogGeneration := store.db.clock.pancakeV2Generation }, nextIndex := 0, pageToken := none,
           lastPosition := none }

def ImportCheckpoint.start (checkpoint : ImportCheckpoint) : ImportState where
  nextIndex := checkpoint.nextIndex
  pageToken := checkpoint.pageToken
  lastPosition := checkpoint.lastPosition
  replayed := false
  added := 0
  fresh := []
  seenTokens := []

def ImportState.restart (s : ImportState) : ImportState :=
  { s with nextIndex := 0, pageToken := none, lastPosition := none, replayed := true, seenTokens := [] }

def ImportState.next (s : ImportState) (decoded : Decoding) (token : Option String) (persisted : Persisted) : ImportState where
  nextIndex := s.nextIndex + decoded.rows.length
  pageToken := token
  lastPosition := decoded.previous
  replayed := s.replayed
  added := persisted.added
  fresh := persisted.fresh
  seenTokens := s.seenTokens ++ token.toList

def replays (s : ImportState) : Except ImportError PageBody → Bool
  | .error (.rejected _) => s.pageToken.isSome && !s.replayed
  | _ => false

def importPage (call : Call) (target : CatalogTarget) (s : ImportState) (body : PageBody) : Import ImportState := do
  Durable.reply (checkPageBody call.pageSize s body)
  let decoded ← Durable.reply (decodePage config target.toTarget s body)
  let store ← Durable.read
  let committed ← Durable.reply (commitPage call.freshLimit s decoded (pageTokenOf body) store)
  Durable.write fun _ => committed.1
  return s.next decoded (pageTokenOf body) committed.2

def importLoop (call : Call) (target : CatalogTarget) : ImportState → List (Answer PageBody) → Import ImportState
  | s, [] => if s.nextIndex < target.poolCount then Durable.fail (.transport "the process stopped") else pure s
  | s, answer :: rest =>
    if s.nextIndex < target.poolCount then do
      Durable.write fun store => { store with db := answer.meanwhile.foldl transact store.db }
      if replays s answer.value then
        Durable.write (restartCheckpoint target)
        importLoop call target s.restart rest
      else
        let body ← Durable.reply answer.value
        let next ← importPage config call target s body
        importLoop call target next rest
    else pure s

def finishPancake (call : Call) (target : CatalogTarget) (s : ImportState) : Import SnapshotOutcome := do
  repairing clearImportGeneration
    (assertPinnedTarget call.beforePublish target.toTarget "Pancake V2 snapshot before publish")
  let store ← Durable.read
  let published ← repairing (initializeCheckpoint target.toTarget) (Durable.reply (publishPancake target store))
  Durable.write fun _ => published.1
  if published.2 then Durable.fail (.snapshot "Pancake V2 snapshot catalog changed before publish; checkpoint restarted")
  else
    return { added := s.added, fresh := s.fresh, snapshotBlock := target.block, snapshotPoolCount := target.poolCount,
             bootstrapped := true }

def runImport (call : Call) (checkpoint : ImportCheckpoint) : Import SnapshotOutcome := do
  let s ← importLoop config call checkpoint.target checkpoint.start call.pages
  finishPancake call checkpoint.target s

def ensurePancakeV2AdvancedSnapshot (call : Call) : Import SnapshotOutcome := do
  Durable.reply (positiveInteger call.pageSize "Pancake V2 snapshot page size")
  Durable.reply (demand (call.pageSize ≤ 10000) "Pancake V2 snapshot page size exceeds 10000")
  let store ← Durable.read
  let published ← repairing unpublish (Durable.reply (publishedTarget store.keys))
  match published with
  | some target => revalidate call target
  | none => do
    let found ← repairing clearImportGeneration (Durable.reply (importCheckpoint store.keys))
    match found with
    | some checkpoint => do
      let checkpoint ← resumeCheckpoint call checkpoint
      runImport config call checkpoint
    | none => do
      let checkpoint ← beginCheckpoint call
      runImport config call checkpoint

end Ensure

variable {config : PancakeConfig} {db db' : Database} {target : Target} {row : ImportRow}

def ValidTarget (target : Target) : Prop :=
  (0 < target.block ∧ target.block ≤ maxSafeInteger) ∧ 0 < target.poolCount ∧ target.poolCount ≤ maxSafeInteger

theorem targetFrom_ok {label : String} : targetFrom target label = .ok () ↔ ValidTarget target := by
  unfold targetFrom positiveInteger demand ValidTarget
  rw [Fallible.then_ok, Fallible.demand_ok, Fallible.demand_ok]

def SafePosition (position : Option Position) : Prop :=
  ∀ found ∈ position, found.block ≤ maxSafeInteger ∧ found.transaction ≤ maxSafeInteger ∧ found.log ≤ maxSafeInteger

theorem checkRow_ok :
    checkRow row = .ok () ↔ ValidTarget row.target.toTarget ∧ row.nextIndex ≤ row.target.poolCount ∧
      (¬ (0 < row.nextIndex ∧ row.nextIndex < row.target.poolCount ∧ storedToken row.pageToken = none)) ∧
      (¬ ((row.nextIndex = 0 ∨ row.nextIndex = row.target.poolCount) ∧ storedToken row.pageToken ≠ none)) ∧
      SafePosition row.lastPosition ∧ (row.nextIndex = 0 ↔ row.lastPosition = none) := by
  unfold checkRow
  simp only [Fallible.then_ok, targetFrom_ok, decodePosition, demand, Fallible.demand_ok, SafePosition]

theorem checkRow_start {target : CatalogTarget} (valid : ValidTarget target.toTarget) :
    checkRow ⟨target, 0, "", none⟩ = .ok () := by
  have noToken : storedToken "" = none := by decide
  refine checkRow_ok.mpr ⟨valid, Nat.zero_le _, fun stuck => absurd stuck.1 (lt_irrefl 0), fun extra => extra.2 noToken,
    fun _ found => ?_, by simp⟩
  cases found

theorem importCheckpoint_decodes {keys : PancakeKeys} :
    (∃ found, importCheckpoint keys = .ok found) ↔ ∀ row ∈ keys.importRow, checkRow row = .ok () := by
  unfold importCheckpoint
  cases keys.importRow with
  | none => simp
  | some row =>
    cases told : checkRow row with
    | ok _ => simp [told, Fallible.ok_bind, pure, Except.pure]
    | error e => simp [told, bind, Except.bind]

theorem importCheckpoint_some {keys : PancakeKeys} {checkpoint : ImportCheckpoint}
    (read : importCheckpoint keys = .ok (some checkpoint)) :
    ∃ row, keys.importRow = some row ∧ checkRow row = .ok () ∧ checkpoint.target = row.target ∧
      checkpoint.nextIndex = row.nextIndex := by
  unfold importCheckpoint at read
  cases stored : keys.importRow with
  | none => rw [stored] at read; cases read
  | some row =>
    rw [stored] at read
    obtain ⟨checked, built⟩ := Fallible.then_ok.mp read
    cases built
    exact ⟨row, rfl, checked, rfl, rfl⟩

theorem decodePairCreated_ok {expected : Nat} {raw : PairLog} {pair : DecodedPair}
    (ran : decodePairCreated config target expected raw = .ok pair) :
    pair.pairIndex = expected ∧ SafePosition (some pair.position) := by
  unfold decodePairCreated demand at ran
  simp only [Fallible.then_ok, Fallible.demand_ok] at ran
  obtain ⟨_, _, block, _, transaction, log, _, _, _, _, _, _, _, built⟩ := ran
  cases built
  refine ⟨rfl, fun found same => ?_⟩
  cases same
  exact ⟨block, transaction, log⟩

/-- The decoded rows carry the ordinals from `nextIndex` on. -/
structure Contiguous (nextIndex : Nat) (logs : Nat) (s : Decoding) (rest : List PairLog) : Prop where
  ordinals : s.rows.map DecodedPair.pairIndex = List.range' nextIndex s.rows.length
  consumed : s.rows.length + rest.length = logs
  position : s.rows ≠ [] → s.previous ≠ none ∧ SafePosition s.previous

theorem decodeLog_contiguous {nextIndex logs : Nat} {s s' : Decoding} {raw : PairLog} {rest : List PairLog}
    (before : Contiguous nextIndex logs s (raw :: rest)) (ran : decodeLog config target nextIndex s raw = .ok s') :
    Contiguous nextIndex logs s' rest := by
  unfold decodeLog at ran
  obtain ⟨pair, decoded, ran⟩ := Fallible.bind_ok ran
  iterate 2 obtain ⟨_, ran⟩ := Fallible.then_ok.mp ran
  cases ran
  obtain ⟨index, safe⟩ := decodePairCreated_ok decoded
  refine ⟨?_, ?_, fun _ => ⟨by simp, safe⟩⟩
  · rw [List.map_append, before.ordinals, List.length_append, List.map_singleton, List.length_singleton, index,
      List.range'_concat, Nat.one_mul]
  · have consumed := before.consumed
    simp only [List.length_cons, List.length_append, List.length_nil] at consumed ⊢
    omega

theorem decodePage_ok {s : ImportState} {body : PageBody} {decoded : Decoding} (ran : decodePage config target s body = .ok decoded) :
    decoded.rows.map DecodedPair.pairIndex = List.range' s.nextIndex decoded.rows.length ∧
      decoded.rows.length = body.logs.length ∧ (body.logs ≠ [] → decoded.previous ≠ none ∧ SafePosition decoded.previous) ∧
      s.nextIndex + decoded.rows.length ≤ target.poolCount ∧
      ¬ (s.nextIndex + decoded.rows.length < target.poolCount ∧ pageTokenOf body = none) ∧
      ¬ (s.nextIndex + decoded.rows.length = target.poolCount ∧ pageTokenOf body ≠ none) := by
  unfold decodePage demand at ran
  obtain ⟨found, folded, ran⟩ := Fallible.bind_ok ran
  simp only [Fallible.then_ok, Fallible.demand_ok] at ran
  obtain ⟨within, continues, ends, done⟩ := ran
  cases done
  have each : ∀ s' raw rest s'', Contiguous s.nextIndex body.logs.length s' (raw :: rest) →
      decodeLog config target s.nextIndex s' raw = .ok s'' → Contiguous s.nextIndex body.logs.length s'' rest :=
    fun _ _ _ _ => decodeLog_contiguous
  have start : Contiguous s.nextIndex body.logs.length ⟨[], s.lastPosition⟩ body.logs :=
    ⟨rfl, by simp, fun some => absurd rfl some⟩
  have all := Fallible.foldlM_invariant each start folded
  have counted : decoded.rows.length = body.logs.length := by simpa using all.consumed
  refine ⟨all.ordinals, counted, fun logs => all.position fun none => logs ?_, within, continues, ends⟩
  rw [none] at counted
  exact List.length_eq_zero_iff.mp counted.symm

theorem persistPair_ok {freshLimit : Nat} {s s' : Persisted} {pair : DecodedPair} (ran : persistPair freshLimit s pair = .ok s') :
    Evolves s.db s'.db ∧ s'.db.clock.pancakeV2Generation = s.db.clock.pancakeV2Generation ∧ Holds s'.db pair.pairIndex := by
  unfold persistPair at ran
  split at ran
  · rename_i isNew
    cases ran
    obtain ⟨clock, stored⟩ := insertPool_pools s.db (pairPool pair)
    rw [if_pos isNew] at stored
    obtain ⟨stamp, pools⟩ := stored
    refine ⟨insertPool_evolves s.db (pairPool pair), clock, { pairPool pair with catalogSeq := stamp }, ?_, rfl, rfl⟩
    dsimp only
    rw [pools]
    exact Table.mem_put.mpr (Or.inl rfl)
  · split at ran
    · cases ran
    · rename_i existing read
      obtain ⟨asserted, same⟩ := Fallible.then_ok.mp ran
      cases same
      obtain ⟨venue, _, _, _, index, _⟩ := Fallible.demand_ok.mp asserted
      exact ⟨Evolves.refl s.db, rfl, existing, Table.get?_mem read, venue, index⟩

structure Persisting (start : Database) (pairs : List DecodedPair) (s : Persisted) (rest : List DecodedPair) : Prop where
  evolves : Evolves start s.db
  generation : s.db.clock.pancakeV2Generation = start.clock.pancakeV2Generation
  stored : ∀ pair ∈ pairs, pair ∈ rest ∨ Holds s.db pair.pairIndex

theorem persistPairs_ok {freshLimit added : Nat} {fresh : List Address} {pairs : List DecodedPair} {s' : Persisted}
    (ran : pairs.foldlM (persistPair freshLimit) ⟨db, added, fresh⟩ = .ok s') :
    Evolves db s'.db ∧ s'.db.clock.pancakeV2Generation = db.clock.pancakeV2Generation ∧ ∀ pair ∈ pairs, Holds s'.db pair.pairIndex := by
  have each : ∀ s pair rest s', Persisting db pairs s (pair :: rest) → persistPair freshLimit s pair = .ok s' →
      Persisting db pairs s' rest := by
    intro s pair rest s' before one
    obtain ⟨evolves, generation, held⟩ := persistPair_ok one
    refine ⟨before.evolves.trans evolves, generation.trans before.generation, fun other inside => ?_⟩
    rcases before.stored other inside with waiting | early
    · rcases List.mem_cons.mp waiting with rfl | later
      · exact Or.inr held
      · exact Or.inl later
    · exact Or.inr (evolves.kept generation _ early)
  have start : Persisting db pairs ⟨db, added, fresh⟩ pairs := ⟨Evolves.refl db, rfl, fun _ => Or.inl⟩
  have all := Fallible.foldlM_invariant each start ran
  refine ⟨all.evolves, all.generation, fun pair inside => ?_⟩
  rcases all.stored pair inside with waiting | held
  · cases waiting
  · exact held

/-- The venue's rows carry the ordinals below `n`, each once, and nothing else. -/
def Covers (db : Database) (n : Nat) : Prop := ((pancakePools db).map Pool.pairIndex).Perm ((List.range n).map some)

theorem map_pairIndex {pools : List Pool} (known : ∀ pool ∈ pools, pool.pairIndex ≠ none) :
    pools.map Pool.pairIndex = (pools.filterMap Pool.pairIndex).map some := by
  induction pools with
  | nil => rfl
  | cons pool rest ih =>
    obtain ⟨index, read⟩ := Option.ne_none_iff_exists'.mp (known pool List.mem_cons_self)
    rw [List.map_cons, List.filterMap_cons_some read, List.map_cons, read, ih fun other inside => known other (List.mem_cons_of_mem _ inside)]

theorem covers_of_stats {minimumCount n : Nat} {label : String} (passed : assertPairIndexStats (pairIndexStats db) minimumCount label = .ok n) :
    minimumCount ≤ n ∧ Covers db n := by
  unfold assertPairIndexStats demand at passed
  obtain ⟨asserted, counted⟩ := Fallible.then_ok.mp passed
  obtain ⟨enough, _, top, distinct, missing⟩ := Fallible.demand_ok.mp asserted
  cases counted
  refine ⟨enough, ?_⟩
  unfold pairIndexStats at top distinct missing ⊢
  dsimp only at top distinct missing ⊢
  have known : ∀ pool ∈ pancakePools db, pool.pairIndex ≠ none := fun pool inside absent =>
    (List.countP_eq_zero.mp missing pool inside) (by rw [absent]; rfl)
  have mapped := map_pairIndex known
  have length : ((pancakePools db).filterMap Pool.pairIndex).length = (pancakePools db).length := by
    rw [← List.length_map (f := some), ← mapped, List.length_map]
  unfold Covers
  rw [mapped]
  refine List.Perm.map some ?_
  generalize (pancakePools db).filterMap Pool.pairIndex = indices at top distinct length ⊢
  obtain ⟨greatest, read, successor⟩ := Option.map_eq_some_iff.mp top
  have within := (List.max?_eq_some_iff.mp read).2
  have distinctRows : indices.Nodup := by
    refine List.dedup_eq_self.mp ((List.dedup_sublist indices).eq_of_length ?_)
    rw [distinct, length]
  have sub : List.Subperm indices (List.range (pancakePools db).length) :=
    List.subperm_of_subset distinctRows fun index inside => List.mem_range.mpr (by have := within index inside; omega)
  refine sub.perm_of_length_le ?_
  rw [List.length_range, length]

end LpTerminal.Catalog
