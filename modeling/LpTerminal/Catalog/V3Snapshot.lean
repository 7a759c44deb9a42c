import LpTerminal.Catalog.Rows
import LpTerminal.Lib.BlockPages
import LpTerminal.Lib.Durable
import LpTerminal.Lib.Fallible
import LpTerminal.Lib.Keyset

/-!
The import of the Uniswap V3 directory: an immutable Graph snapshot in pages by creation block, each row
verified against the factory, each page committed with its checkpoint, and the publication.
-/

namespace LpTerminal.Catalog.V3Snapshot

/-- The values of `randomUUID`. -/
abbrev Uuid := Nat

def UNI_V3_START_BLOCK : Nat := 12369621

/-- A row of `pools` with the columns the importer reads. -/
structure V3Row where
  address : Address
  proto : PoolProto
  token0 : Address
  token1 : Address
  feePpm : Nat
  tickSpacing : Option Int
  createdBlock : Option Nat
  snapshotGeneration : Option Uuid

structure GraphPool where
  id : Address
  createdBlock : Nat

/-- The content of every snapshot of a subgraph, whose pools are not older than the factory, and what the
factory contract answers. -/
structure World where
  pools : String → Digest → Table GraphPool.id
  nonzero : ∀ subgraphId hash, ∀ pool ∈ (pools subgraphId hash).rows, 0 < pool.id
  started : ∀ subgraphId hash, ∀ pool ∈ (pools subgraphId hash).rows, UNI_V3_START_BLOCK ≤ pool.createdBlock
  factory : Address
  getPool : Address → Address → Nat → Option Address
  feeAmountTickSpacing : Nat → Option Int

structure Generation where
  subgraphId : String
  deployment : String
  block : Nat
  blockHash : Digest
deriving DecidableEq

/-- The `v3_snapshot_import_…` keys. The target keys stay after a publication, the others are emptied. -/
structure ImportKeys where
  target : Generation
  generation : Option Generation
  rowGeneration : Option Uuid
  cursorBlock : Option Nat
  downloaded : Option Nat
  poolCount : Option Nat

structure Provenance where
  target : Generation
  poolCount : Nat

structure Store where
  pools : Table V3Row.address
  importKeys : Option ImportKeys
  complete : Bool
  published : Option Provenance
  /-- `v3_cursor`. -/
  cursor : Option Nat

inductive Failure
  | mismatch (message : String)
  | other (message : String)

abbrev Result := Except Failure

structure GraphMeta where
  block : Nat
  blockHash : Digest
  deployment : String
  hasIndexingErrors : Bool

structure Protocol where
  id : Address
  network : String
  totalPoolCount : Nat

structure PageBody where
  info : GraphMeta
  protocols : List Protocol
  pools : List GraphPool

structure BlockBody where
  info : GraphMeta
  pools : List GraphPool

structure Identity where
  token0 : Option Address
  token1 : Option Address
  fee : Option Nat
  tickSpacing : Option Int

/-- Transactions of other tasks: they leave the rows of the venue alone, and the rows they add to it carry
no snapshot label. -/
structure OtherTask where
  run : Table V3Row.address → Table V3Row.address
  keeps : ∀ {pools : Table V3Row.address} {row : V3Row}, row ∈ pools.rows → row.proto = .univ3 → row ∈ (run pools).rows
  fresh : ∀ {pools : Table V3Row.address} {row : V3Row}, row ∈ (run pools).rows → row.proto = .univ3 →
    row ∈ pools.rows ∨ row.snapshotGeneration = none

variable {world : World}

def blockPools (world : World) (subgraphId : String) (hash : Digest) (block : Nat) : Table GraphPool.id :=
  (world.pools subgraphId hash).keep fun pool => pool.createdBlock = block

/-- What one await brings: the writes of other tasks meanwhile, and the answer to whatever was asked. A page
by creation block comes in any order within a block; a call to the factory that answers, answers what it says. -/
structure Reply (world : World) where
  meanwhile : OtherTask
  latest : Result GraphMeta
  canonicalHash : Nat → Result Digest
  page : String → Digest → Nat → Nat → Result PageBody
  page_faithful : ∀ {subgraphId : String} {hash : Digest} {after first : Nat} {body : PageBody},
    page subgraphId hash after first = .ok body →
      BlockPages.IsPage GraphPool.createdBlock (world.pools subgraphId hash).rows after first body.pools
  blockPage : String → Digest → Nat → Address → Nat → Result BlockBody
  blockPage_faithful : ∀ {subgraphId : String} {hash : Digest} {block : Nat} {after : Address} {first : Nat} {body : BlockBody},
    blockPage subgraphId hash block after first = .ok body →
      body.pools = (blockPools world subgraphId hash block).page (some after) first
  identity : Result (Address → Identity)
  tickSpacing : Result (Nat → Option Int)
  tickSpacing_faithful : ∀ {answers : Nat → Option Int} {fee : Nat} {spacing : Int},
    tickSpacing = .ok answers → answers fee = some spacing → world.feeAmountTickSpacing fee = some spacing
  getPool : Result (Address → Address → Nat → Option Address)
  getPool_faithful : ∀ {answers : Address → Address → Nat → Option Address} {token0 token1 : Address} {fee : Nat} {pool : Address},
    getPool = .ok answers → answers token0 token1 fee = some pool → world.getPool token0 token1 fee = some pool

/-- One call with its configuration; where the replies end, the process stopped. -/
structure Attempt (world : World) where
  targetBlock : Nat
  subgraphId : String
  expectedDeployment : String
  maxLagBlocks : Nat
  pageSize : Nat
  positive : 0 < pageSize
  randomUUID : Uuid
  replies : List (Reply world)

structure Process (world : World) where
  store : Store
  replies : List (Reply world)

abbrev Import (world : World) := Durable Failure (Process world)

def stopped : Failure := .other "the process stopped"

def await {α : Type} (answer : Reply world → Result α) : Import world α := do
  let process ← Durable.read
  match process.replies with
  | [] => Durable.fail stopped
  | reply :: rest => do
    Durable.write fun process => { store := { process.store with pools := reply.meanwhile.run process.store.pools }, replies := rest }
    Durable.reply (answer reply)

def require (condition : Prop) [Decidable condition] (message : String) : Result Unit :=
  Fallible.demand condition (.other message)

structure Expected where
  block : Nat
  blockHash : Digest
  deployment : String

def assertMeta (info : GraphMeta) (expected : Option Expected) : Result Unit := do
  require (info.hasIndexingErrors = false) "The Graph V3 subgraph reports indexing errors"
  require (∀ pin ∈ expected, info.block = pin.block) s!"The Graph snapshot moved to {info.block}"
  require (∀ pin ∈ expected, info.blockHash = pin.blockHash) s!"The Graph V3 snapshot block {info.block} changed hash"
  require (info.deployment ≠ "") "The Graph response is missing _meta.deployment"
  require (∀ pin ∈ expected, info.deployment = pin.deployment) "The Graph deployment changed inside a pinned V3 snapshot"

def assertCanonicalSnapshot (block : Nat) (graphHash : Digest) : Import world Unit := do
  let rpcHash ← await fun reply => reply.canonicalHash block
  Durable.reply (Fallible.demand (rpcHash = graphHash) (.mismatch
    s!"The Graph Uniswap V3 snapshot block {block} hash {graphHash} does not match canonical RPC hash {rpcHash}"))

def canonicalStill (block : Nat) (graphHash : Digest) : Import world Bool :=
  Durable.rescue (fun failure => match failure with | .mismatch _ => some false | .other _ => none) do
    assertCanonicalSnapshot block graphHash
    return true

/-- `canResumePinnedGeneration`, before the canonical check. -/
def canResume (a : Attempt world) (indexed : GraphMeta) (target : Generation) : Bool :=
  UNI_V3_START_BLOCK ≤ target.block && target.block ≤ indexed.block && a.targetBlock - target.block ≤ a.maxLagBlocks &&
    target.deployment = indexed.deployment && target.subgraphId = a.subgraphId

def resumePin (a : Attempt world) (indexed : GraphMeta) : Import world (Option Generation) := do
  let process ← Durable.read
  match (process.store.importKeys.map (·.target)).filter (canResume a indexed) with
  | none => return none
  | some target => return if ← canonicalStill target.block target.blockHash then some target else none

def pinBlock (a : Attempt world) (indexed : GraphMeta) (resumed : Option Generation) : Import world Generation := do
  let block := (resumed.map (·.block)).getD (min indexed.block a.targetBlock)
  Durable.reply (require (a.targetBlock - block ≤ a.maxLagBlocks)
    s!"The Graph V3 snapshot lags the finalized chain head by {a.targetBlock - block} blocks; maximum is {a.maxLagBlocks}")
  let hash ← match resumed with
    | some target => pure target.blockHash
    | none => if block = indexed.block then pure indexed.blockHash else await fun reply => reply.canonicalHash block
  assertCanonicalSnapshot block hash
  return ⟨a.subgraphId, indexed.deployment, block, hash⟩

structure Progress where
  cursorBlock : Nat
  downloaded : Nat
  expectedCount : Option Nat
  added : Nat
  tickSpacingByFee : List (Nat × Int)

/-- `resumable`: the row generation of the unfinished import of this very target. -/
def resumable (keys : Option ImportKeys) (resumed : Option Generation) (target : Generation) : Option (ImportKeys × Uuid) :=
  match keys, resumed with
  | some keys, some _ => if keys.generation = some target then keys.rowGeneration.map (keys, ·) else none
  | _, _ => none

def resumedProgress (target : Generation) (keys : ImportKeys) : Progress where
  cursorBlock :=
    (keys.cursorBlock.filter fun block => UNI_V3_START_BLOCK - 1 ≤ block && block ≤ target.block).getD (UNI_V3_START_BLOCK - 1)
  downloaded := keys.downloaded.getD 0
  expectedCount := none
  added := 0
  tickSpacingByFee := []

def freshProgress : Progress where
  cursorBlock := UNI_V3_START_BLOCK - 1
  downloaded := 0
  expectedCount := none
  added := 0
  tickSpacingByFee := []

def beginImport (target : Generation) (rowGeneration : Uuid) (store : Store) : Store :=
  { store with
    complete := false
    importKeys := some { target, generation := some target, rowGeneration := some rowGeneration,
                         cursorBlock := some (UNI_V3_START_BLOCK - 1), downloaded := some 0, poolCount := none } }

def checkProtocols (world : World) (protocols : List Protocol) : Result Nat :=
  match protocols with
  | [protocol] => do
    require (protocol.id = world.factory ∧ protocol.network = "BSC")
      "The Graph V3 snapshot is not bound to the configured official factory"
    return protocol.totalPoolCount
  | _ => .error (.other "The Graph V3 snapshot is not bound to the configured official factory")

def parseCandidate (target : Generation) (pool : GraphPool) : Result Unit :=
  require (UNI_V3_START_BLOCK ≤ pool.createdBlock ∧ pool.createdBlock ≤ target.block)
    s!"The Graph pool {pool.id} has invalid creation block"

def parseCandidates (target : Generation) (pools : List GraphPool) : Result Unit :=
  pools.forM (parseCandidate target)

def strictlyOrdered (previousId : Address) : List GraphPool → Bool
  | [] => true
  | row :: rest => previousId < row.id && strictlyOrdered row.id rest

def expectedMeta (target : Generation) : Option Expected := some ⟨target.block, target.blockHash, target.deployment⟩

def checkBlockPage (a : Attempt world) (target : Generation) (block : Nat) (after : Address) (body : BlockBody) : Result Unit := do
  assertMeta body.info (expectedMeta target)
  require (body.pools.length ≤ a.pageSize) "The Graph returned an oversized V3 block page"
  parseCandidates target body.pools
  require (∀ row ∈ body.pools, row.createdBlock = block) "The Graph V3 block page escaped its creation block"
  require (strictlyOrdered after body.pools = true) "The Graph V3 block page is not strictly ordered by pool id"

def blockRows (a : Attempt world) (target : Generation) (block : Nat) : Nat → Address → Import world (List GraphPool)
  | 0, _ => Durable.fail stopped
  | rounds + 1, after => do
    let body ← await fun reply => reply.blockPage target.subgraphId target.blockHash block after a.pageSize
    Durable.reply (checkBlockPage a target block after body)
    match body.pools.getLast? with
    | some last =>
      if body.pools.length < a.pageSize then return body.pools
      else return body.pools ++ (← blockRows a target block rounds last.id)
    | none => return body.pools

def completeRows (a : Attempt world) (target : Generation) (pools : List GraphPool) : Import world (List GraphPool) :=
  match pools.getLast? with
  | some last =>
    if pools.length = a.pageSize then do
      let process ← Durable.read
      let tail ← blockRows a target last.createdBlock process.replies.length 0
      return pools.filter (·.createdBlock < last.createdBlock) ++ tail
    else pure pools
  | none => pure pools

def byBlock (left right : GraphPool) : Bool :=
  left.createdBlock < right.createdBlock || left.createdBlock = right.createdBlock && left.id ≤ right.id

structure Parsed extends GraphPool where
  token0 : Address
  token1 : Address
  fee : Nat
  spacing : Int

def parseIdentity (row : GraphPool) (identity : Identity) : Result Parsed :=
  match identity.token0, identity.token1, identity.fee, identity.tickSpacing with
  | some token0, some token1, some fee, some spacing => do
    require (token0 < token1) s!"The Graph pool {row.id} has non-canonical token order"
    require (0 < fee ∧ fee < 1000000) s!"official V3 pool {row.id} returned an invalid fee tier"
    require (spacing ≠ 0) s!"official V3 pool {row.id} returned invalid tick spacing"
    return { row with token0, token1, fee, spacing }
  | _, _, _, _ => .error (.other "The Graph returned invalid pool token0")

def missingFees (known : List (Nat × Int)) (parsed : List Parsed) : List Nat :=
  (parsed.map (·.fee)).dedup.filter fun fee => (known.lookup fee).isNone

def readSpacing (answers : Nat → Option Int) (fee : Nat) : Result (Nat × Int) :=
  match (answers fee).filter (· ≠ 0) with
  | some spacing => .ok (fee, spacing)
  | none => .error (.other s!"official V3 factory rejected fee tier {fee}")

def learnSpacings (known : List (Nat × Int)) (parsed : List Parsed) : Import world (List (Nat × Int)) :=
  match missingFees known parsed with
  | [] => pure known
  | missing => do
    let answers ← await fun reply => reply.tickSpacing
    let found ← Durable.reply (Fallible.collect (readSpacing answers) missing)
    return known ++ found

def verifySpacing (known : List (Nat × Int)) (row : Parsed) : Result Unit :=
  require (known.lookup row.fee = some row.spacing) s!"official V3 pool {row.id} tick spacing conflicts with the factory"

def verifyFactory (answers : Address → Address → Nat → Option Address) (row : Parsed) : Result Unit :=
  require (answers row.token0 row.token1 row.fee = some row.id)
    s!"The Graph pool {row.id} failed official factory verification"

def sameIdentity (existing : V3Row) (row : Parsed) : Bool :=
  existing.proto = .univ3 && existing.token0 = row.token0 && existing.token1 = row.token1 && existing.feePpm = row.fee &&
    existing.tickSpacing = some row.spacing

def newRow (rowGeneration : Uuid) (row : Parsed) : V3Row where
  address := row.id
  proto := .univ3
  token0 := row.token0
  token1 := row.token1
  feePpm := row.fee
  tickSpacing := some row.spacing
  createdBlock := some row.createdBlock
  snapshotGeneration := some rowGeneration

def storeRow (rowGeneration : Uuid) (stored : Table V3Row.address × Nat) (row : Parsed) : Result (Table V3Row.address × Nat) :=
  match stored.1.get? row.id with
  | some existing => do
    require (sameIdentity existing row = true) s!"existing pool {row.id} conflicts with verified The Graph snapshot"
    return (stored.1.put { existing with snapshotGeneration := some rowGeneration }, stored.2)
  | none => .ok (stored.1.put (newRow rowGeneration row), stored.2 + 1)

def nextCursor (cursorBlock : Nat) (parsed : List Parsed) : Nat := ((parsed.getLast?).map (·.createdBlock)).getD cursorBlock

def storePage (rowGeneration : Uuid) (pageFactoryCount : Nat) (progress : Progress) (parsed : List Parsed) (store : Store) :
    Result (Store × Nat) := do
  let (pools, added) ← parsed.foldlM (storeRow rowGeneration) (store.pools, progress.added)
  return ({ store with
    pools
    importKeys := store.importKeys.map fun keys =>
      { keys with poolCount := some pageFactoryCount, cursorBlock := some (nextCursor progress.cursorBlock parsed),
                  downloaded := some (progress.downloaded + parsed.length) } }, added)

def fetchPage (a : Attempt world) (target : Generation) (resumed : Bool) (progress : Progress) : Import world (List GraphPool × Nat) := do
  let body ← await fun reply => reply.page target.subgraphId target.blockHash progress.cursorBlock a.pageSize
  Durable.reply (assertMeta body.info (expectedMeta target))
  let pageFactoryCount ← Durable.reply (checkProtocols world body.protocols)
  Durable.reply (require (∀ expected ∈ progress.expectedCount, expected = pageFactoryCount)
    "The Graph factory poolCount changed inside a pinned snapshot")
  let process ← Durable.read
  Durable.reply (require (resumed = true → ∀ keys ∈ process.store.importKeys, ∀ stored ∈ keys.poolCount,
    0 < stored → stored = pageFactoryCount) "The Graph V3 poolCount conflicts with resumable progress")
  Durable.reply (require (body.pools.length ≤ a.pageSize) "The Graph returned an oversized V3 page")
  Durable.reply (parseCandidates target body.pools)
  Durable.reply (require (body.pools.Pairwise fun left right => left.createdBlock ≤ right.createdBlock)
    "The Graph V3 page is not ordered by pool creation block")
  return (body.pools, pageFactoryCount)

def verifyRows (candidates : List GraphPool) (known : List (Nat × Int)) : Import world (List Parsed × List (Nat × Int)) := do
  let ordered := candidates.mergeSort byBlock
  Durable.reply (require ((ordered.map (·.id)).Nodup) "The Graph V3 page repeated a pool")
  let identities ← await fun reply => reply.identity
  let parsed ← Durable.reply (Fallible.collect (fun row => parseIdentity row (identities row.id)) ordered)
  let known ← learnSpacings known parsed
  Durable.reply (parsed.forM (verifySpacing known))
  let answers ← await fun reply => reply.getPool
  Durable.reply (parsed.forM (verifyFactory answers))
  return (parsed, known)

def Progress.next (progress : Progress) (pageFactoryCount added : Nat) (parsed : List Parsed) (known : List (Nat × Int)) : Progress where
  cursorBlock := nextCursor progress.cursorBlock parsed
  downloaded := progress.downloaded + parsed.length
  expectedCount := some pageFactoryCount
  added
  tickSpacingByFee := known

def importPage (a : Attempt world) (target : Generation) (rowGeneration : Uuid) (resumed : Bool) (progress : Progress) :
    Import world (Progress × Bool) := do
  let (pools, pageFactoryCount) ← fetchPage a target resumed progress
  let candidates ← completeRows a target pools
  let (parsed, known) ← verifyRows candidates progress.tickSpacingByFee
  let process ← Durable.read
  let (store, added) ← Durable.reply (storePage rowGeneration pageFactoryCount progress parsed process.store)
  Durable.write fun process => { process with store }
  return (progress.next pageFactoryCount added parsed known, parsed.length < a.pageSize)

def importPages (a : Attempt world) (target : Generation) (rowGeneration : Uuid) (resumed : Bool) : Nat → Progress → Import world Progress
  | 0, _ => Durable.fail stopped
  | rounds + 1, progress => do
    let (next, last) ← importPage a target rowGeneration resumed progress
    if last then return next else importPages a target rowGeneration resumed rounds next

def univ3Pools (pools : Table V3Row.address) : List V3Row := pools.rows.filter fun row => row.proto = .univ3

def deletePoolsOutsideSnapshotGeneration (rowGeneration : Uuid) (pools : Table V3Row.address) : Table V3Row.address :=
  pools.keep fun row => !(row.proto = .univ3 && row.snapshotGeneration ≠ some rowGeneration)

def publish (target : Generation) (rowGeneration : Uuid) (downloaded : Nat) (store : Store) : Result Store := do
  let pools := deletePoolsOutsideSnapshotGeneration rowGeneration store.pools
  require ((univ3Pools pools).length = downloaded)
    s!"Uniswap V3 snapshot replacement retained {(univ3Pools pools).length}/{downloaded} pools"
  return {
    pools
    importKeys := store.importKeys.map fun keys =>
      { keys with generation := none, rowGeneration := none, cursorBlock := none, downloaded := none, poolCount := none }
    complete := true
    published := some ⟨target, downloaded⟩
    cursor := some target.block }

structure SnapshotResult where
  added : Nat
  target : Generation
  downloaded : Nat

def finishImport (target : Generation) (rowGeneration : Uuid) (progress : Progress) : Import world SnapshotResult := do
  Durable.reply (require (∃ expected ∈ progress.expectedCount, 0 < expected ∧ progress.downloaded = expected)
    s!"The Graph V3 snapshot is incomplete: downloaded {progress.downloaded}/{progress.expectedCount.getD 0} pools")
  assertCanonicalSnapshot target.block target.blockHash
  let process ← Durable.read
  let store ← Durable.reply (publish target rowGeneration progress.downloaded process.store)
  Durable.write fun process => { process with store }
  return ⟨progress.added, target, progress.downloaded⟩

def runImport (a : Attempt world) (target : Generation) (rowGeneration : Uuid) (resumed : Bool) (progress : Progress) :
    Import world SnapshotResult := do
  let process ← Durable.read
  let progress ← importPages a target rowGeneration resumed process.replies.length progress
  finishImport target rowGeneration progress

def importBscV3Snapshot (a : Attempt world) : Import world SnapshotResult := do
  Durable.reply (require (UNI_V3_START_BLOCK ≤ a.targetBlock) "invalid finalized target block for V3 snapshot")
  let indexed ← await fun reply => reply.latest
  Durable.reply (assertMeta indexed none)
  Durable.reply (require (indexed.deployment = a.expectedDeployment)
    s!"The Graph Uniswap V3 deployment {indexed.deployment} is not the reviewed deployment {a.expectedDeployment}")
  Durable.reply (require (UNI_V3_START_BLOCK ≤ indexed.block)
    "The Graph V3 subgraph has not reached the factory deployment block")
  let resumed ← resumePin a indexed
  let target ← pinBlock a indexed resumed
  let process ← Durable.read
  match resumable process.store.importKeys resumed target with
  | some (keys, rowGeneration) => runImport a target rowGeneration true (resumedProgress target keys)
  | none => do
    Durable.write fun process => { process with store := beginImport target a.randomUUID process.store }
    runImport a target a.randomUUID false freshProgress

def attempt (store : Store) (a : Attempt world) : Result SnapshotResult × Store :=
  let outcome := (importBscV3Snapshot a).run ⟨store, a.replies⟩
  (outcome.1, outcome.2.store)

end LpTerminal.Catalog.V3Snapshot
