import LpTerminal.Emerging.MinuteBuckets
import LpTerminal.Lib.BlockTree

/-!
The event scan over a chain whose blocks may be replaced between two sweeps: the check of a cursor's block, the rewind to a block
that is stored, and the pages, all under one request budget.
-/

namespace LpTerminal.Emerging.Reorg

/-- What the chains are made of. A hash names a block with everything below it. -/
structure Blocks extends BlockTree where
  ts : ℕ → ℕ
  logs : ℕ → List RawLog
  own : ∀ hash, ∀ log ∈ logs hash, log.blockHash = hash ∧ log.blockNumber = number hash
  /-- On one chain a transaction is in one block, and its logs have indices of their own. -/
  apart : ∀ head first second, toBlockTree.OnChain head first → toBlockTree.OnChain head second →
    ∀ log ∈ logs first, ∀ other ∈ logs second, log.txHash = other.txHash → log.logIndex = other.logIndex → log = other

/-- `EMERGING_TUNE` and the chain's configuration. -/
structure ScanTune where
  poolManager : ℕ
  finalityBlocks : ℕ
  scanRequestsPerSweep : ℕ
  scanMaxStreamsPerSweep : ℕ
  scanStartWindowBlocks : ℕ
  scanMaxWindowBlocks : ℕ
  startPositive : 0 < scanStartWindowBlocks
  maxPositive : 0 < scanMaxWindowBlocks

structure BlockInfo where
  hash : ℕ
  ts : ℕ

/-- The store, the process's `blockCache` and the request budget. `scannedFrom` is kept for the proofs only: the block above
which a stream has scanned. -/
structure Scan where
  store : ScanStore
  cache : List (ℕ × BlockInfo)
  left : ℕ
  scannedFrom : StreamKind → ℕ

abbrev Scan.events (s : Scan) : ChainEvents := s.store.events

/-- What a sweep meets: the seed depth that its block time gives, and whether a request is answered that leaves this much budget. -/
structure SweepInput where
  seedBlocks : ℕ
  answered : ℕ → Bool

def nextWindow (window : ℕ) (succeeded : Bool) (cap : ℕ) : ℕ :=
  if succeeded then min cap (max 1 (window * 2)) else max 1 (window / 2)

def findCommonAncestor (currentHashByBlock : List (ℕ × ℕ)) (storedHashByBlock : ℕ → Option ℕ) : Option ℕ :=
  (currentHashByBlock.find? fun entry => storedHashByBlock entry.1 = some entry.2).map Prod.fst

section
variable (blocks : Blocks) (head : ℕ) (answered : ℕ → Bool)

def blockInfo (n : ℕ) (s : Scan) : Option BlockInfo × Scan :=
  match s.cache.lookup n with
  | some info => (some info, s)
  | none =>
    if n ≤ blocks.number head ∧ answered s.left then
      let info := ⟨blocks.blockAt head n, blocks.ts (blocks.blockAt head n)⟩
      (some info, { s with cache := (n, info) :: s.cache })
    else (none, s)

/-- `req(() => blockInfo(n))`. -/
def reqBlockInfo (n : ℕ) (s : Scan) : Option BlockInfo × Scan :=
  if s.left = 0 then (none, s) else blockInfo blocks head answered n { s with left := s.left - 1 }

def walkBack : ℕ → ℕ → Scan → List (ℕ × ℕ) × Scan
  | 0, _, s => ([], s)
  | rounds + 1, block, s =>
    if block < 1 then ([], s)
    else
      match reqBlockInfo blocks head answered block s with
      | (none, s) => ([], s)
      | (some info, s) =>
        if s.left = 0 then ([(block, info.hash)], s)
        else
          let (walk, s) := walkBack rounds (block - 1) s
          ((block, info.hash) :: walk, s)

def getLogs (poolManager : ℕ) (set : TrackedSet) (kind : StreamKind) (lo hi : ℕ) : List RawLog :=
  (List.range' lo (hi + 1 - lo)).flatMap fun n =>
    (blocks.logs (blocks.blockAt head n)).filter fun log => matchesStream poolManager set log kind

def pageEnd (logs : List RawLog) (hi : ℕ) (s : Scan) : Option BlockInfo × Scan :=
  let logAtHi := logs.find? fun log => log.blockNumber = hi
  match logAtHi.bind fun log => (log.blockTimestamp.filter (· ≠ 0)).map fun ts => BlockInfo.mk log.blockHash ts with
  | some info => (some info, s)
  | none =>
    match reqBlockInfo blocks head answered hi s with
    | (none, s) => (none, s)
    | (some info, s) => (some ⟨(logAtHi.map RawLog.blockHash).getD info.hash, info.ts⟩, s)

end

/-- Which of several rows `LIMIT 1` answers with. -/
structure LimitOne where
  row : ChainEvents → Option ChainEvent
  mem : ∀ rows, ∀ one ∈ row rows, one ∈ rows
  some : ∀ rows, rows ≠ [] → row rows ≠ none

def LimitOne.first : LimitOne := ⟨List.head?, fun _ _ => List.mem_of_mem_head?, fun _ some none => some (List.head?_eq_none_iff.mp none)⟩

/-- `SELECT block_hash FROM emerging_chain_events WHERE block_number = ? LIMIT 1`. -/
def storedHash (limit : LimitOne) (events : ChainEvents) (block : ℕ) : Option ℕ :=
  (limit.row (events.filter fun row => row.blockNumber = block)).map fun row => row.blockHash

def rewindEmergingStream (kind : StreamKind) (ancestor hash : ℕ) (s : Scan) : Scan :=
  { s with
    store := setCursor kind ((s.store.cursors kind).map fun _ => ⟨ancestor, hash, none, .active⟩)
      { s.store with events := archiveAbove s.store.events ancestor }
    scannedFrom := fun other => if other = kind then min (s.scannedFrom kind) ancestor else s.scannedFrom other }

def setStatus (kind : StreamKind) (status : StreamStatus) (s : Scan) : Scan :=
  { s with store := setEmergingStreamStatus kind status s.store }

section
variable (tune : ScanTune) (limit : LimitOne) (set : TrackedSet) (blocks : Blocks) (head : ℕ) (input : SweepInput) (kind : StreamKind)

def finalityHead : ℕ := blocks.number head - tune.finalityBlocks

def commitPage (lo hi : ℕ) (proof : BlockInfo) (s : Scan) : Scan :=
  { s with
    store := commitEmergingScanBatch kind ((getLogs blocks head tune.poolManager set kind lo hi).filterMap fun log => decodeLog set log kind)
      hi proof.hash (some proof.ts) s.store }

def scanPages : ℕ → ℕ → ℕ → Scan → Scan
  | 0, _, _, s => s
  | rounds + 1, lo, window, s =>
    if finalityHead tune blocks head < lo ∨ s.left = 0 then s
    else
      let hi := min (lo + window - 1) (finalityHead tune blocks head)
      let s := { s with left := s.left - 1 }
      if input.answered s.left then
        match pageEnd blocks head input.answered (getLogs blocks head tune.poolManager set kind lo hi) hi s with
        | (none, s) => s
        | (some proof, s) =>
          scanPages rounds (hi + 1) (nextWindow window true tune.scanMaxWindowBlocks) (commitPage tune set blocks head kind lo hi proof s)
      else if window ≤ 1 then setStatus kind .dataGap s
      else scanPages rounds lo (nextWindow window false tune.scanMaxWindowBlocks) s

def scanFrom (block : ℕ) (s : Scan) : Scan :=
  scanPages tune set blocks head input kind s.left (block + 1) tune.scanStartWindowBlocks s

def seedBlock : ℕ := max 1 (finalityHead tune blocks head - input.seedBlocks) - 1

def seeded (block : ℕ) (info : BlockInfo) (s : Scan) : Scan :=
  { s with
    store :=
      { commitEmergingScanBatch kind [] block info.hash (some info.ts) s.store with
        seeds := fun other => if other = kind then some info.ts else s.store.seeds other }
    scannedFrom := fun other => if other = kind then block else s.scannedFrom other }

def seedStream (s : Scan) : Scan :=
  match reqBlockInfo blocks head input.answered (seedBlock tune blocks head input) s with
  | (none, s) => s
  | (some info, s) => seeded kind (seedBlock tune blocks head input) info s

def repair (cursor : Cursor) (s : Scan) : Scan :=
  let (walk, s) := walkBack blocks head input.answered (min 64 32) (cursor.blockNumber - 1) s
  match findCommonAncestor walk (storedHash limit s.store.events) with
  | none => setStatus kind .reorgRepair s
  | some ancestor =>
    match reqBlockInfo blocks head input.answered ancestor s with
    | (none, s) => s
    | (some info, s) => scanFrom tune set blocks head input kind ancestor (rewindEmergingStream kind ancestor info.hash s)

def checkCursor (cursor : Cursor) (s : Scan) : Scan :=
  match reqBlockInfo blocks head input.answered cursor.blockNumber s with
  | (none, s) => s
  | (some current, s) =>
    if current.hash = cursor.blockHash then scanFrom tune set blocks head input kind cursor.blockNumber s
    else repair tune limit set blocks head input kind cursor s

def scanStream (s : Scan) : Scan :=
  let s := if s.store.cursors kind = none then seedStream tune blocks head input kind s else s
  match s.store.cursors kind with
  | none => s
  | some cursor => checkCursor tune limit set blocks head input kind cursor s

end

/-- `buildStreams`, cut to the streams of one sweep. -/
def streams (tune : ScanTune) (set : TrackedSet) : List StreamKind :=
  ([StreamKind.clPools, .v4Pools, .tokens].filter fun kind => streamOpen set kind).take tune.scanMaxStreamsPerSweep

structure World where
  scan : Scan
  head : ℕ

inductive Event where
  | replaced (head : ℕ)
  | restarted
  | sweep (input : SweepInput)

section
variable (tune : ScanTune) (limit : LimitOne) (set : TrackedSet) (blocks : Blocks)

def runEmergingScanSweep (head : ℕ) (input : SweepInput) (s : Scan) : Scan :=
  (streams tune set).foldl (fun s kind => scanStream tune limit set blocks head input kind s) { s with left := tune.scanRequestsPerSweep }

def step (world : World) : Event → World
  | .replaced head => { world with head := head }
  | .restarted => { world with scan := { world.scan with cache := [] } }
  | .sweep input => { world with scan := runEmergingScanSweep tune limit set blocks world.head input world.scan }

end

def World.fresh (head : ℕ) : World where
  scan := ⟨⟨[], fun _ => none, fun _ => none⟩, [], 0, fun _ => 0⟩
  head := head

end LpTerminal.Emerging.Reorg
