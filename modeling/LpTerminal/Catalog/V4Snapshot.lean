import LpTerminal.Catalog.Projections
import LpTerminal.Catalog.Triggers
import LpTerminal.Lib.Durable
import LpTerminal.Lib.Fallible

/-!
The import of one pinned Graph snapshot: pages, resume pointers and the publishing transaction, and the published generation across
every sequence of imports.
-/

namespace LpTerminal.Catalog

/-- What the importer takes from its deployment: the PoolManager and the digest of a pin. -/
structure SnapshotConfig where
  poolManager : Address
  snapshotGeneration : String → String → Nat → Digest → Digest

/-- `parsedPool` throws on a pair that is not in canonical order. -/
structure ParsedPool where
  id : Digest
  currency0 : Address
  currency1 : Address
  tickSpacing : Nat
  hooks : Address
  ordered : currency0 < currency1

/-- A page whose fields parsed, with the one manager's pool count. -/
structure PageReply where
  block : Nat
  blockHash : Digest
  deployment : String
  poolCount : Nat
  pools : List ParsedPool

structure Pin where
  block : Nat
  blockHash : Digest

/-- The `v4_snapshot_inflight_…` keys, which are written together and cleared together. -/
structure Inflight where
  block : Nat
  blockHash : Digest
  subgraphId : String
  after : Digest
  downloaded : Nat
  poolCount : Nat
  deployment : String
  generation : Digest
  /-- Ghost: the pools the accepted pages of this import named. -/
  named : List Digest

/-- The provenance keys of the published snapshot, and `v4_cursor`. -/
structure Provenance where
  block : Nat
  blockHash : Digest
  subgraphId : String
  deployment : String
  cursor : Nat

structure Directory where
  db : Database
  inflight : Option Inflight
  provenance : Option Provenance

def Directory.fresh : Directory := ⟨Database.fresh, none, none⟩

/-- One call with the answers of the Graph and of the RPC; where the answers end, the process stopped. -/
structure Attempt where
  targetBlock : Nat
  subgraphId : String
  maxLagBlocks : Nat
  indexedBlock : Except String Nat
  pinHash : Nat → Except String Digest
  pages : List (Except String PageReply)
  publishHash : Nat → Except String Digest

structure Progress where
  after : Digest
  downloaded : Nat
  expectedCount : Option Nat
  deployment : Option String
  generation : Option Digest
  added : Nat
  /-- Ghost, as in `Inflight`. -/
  named : List Digest

structure Accepted where
  pools : List ParsedPool
  count : Nat
  deployment : String
  generation : Digest
  rest : List (Except String PageReply)

structure SnapshotResult where
  added : Nat
  block : Nat
  blockHash : Digest
  downloaded : Nat
  deployment : String
  generation : Digest
  /-- Ghost, as in `Inflight`. -/
  named : List Digest

def pageSize : Nat := 1000

def pageCountAttempts : Nat := 5

def zeroPoolId : Digest := 0

section Import

variable (config : SnapshotConfig)

def strictlyOrdered (previousId : Digest) : List ParsedPool → Bool
  | [] => true
  | row :: rest => previousId < row.id && strictlyOrdered row.id rest

def checkPage (subgraphId : String) (pin : Pin) (after : Digest) (deployment : Option String) (generation : Option Digest)
    (page : PageReply) : Except String Unit := do
  Fallible.demand (page.block = pin.block) s!"The Graph V4 snapshot moved from block {pin.block} to {page.block}"
  Fallible.demand (page.blockHash = pin.blockHash) s!"The Graph V4 snapshot block {page.block} changed hash"
  Fallible.demand (page.deployment ≠ "") "The Graph response is missing _meta.deployment"
  Fallible.demand (deployment = none ∨ deployment = some page.deployment)
    "The Graph deployment changed inside a pinned V4 snapshot"
  Fallible.demand (generation = none ∨
      generation = some (config.snapshotGeneration subgraphId page.deployment pin.block pin.blockHash))
    "The Graph V4 snapshot generation changed inside a pinned import"
  Fallible.demand (page.pools.length ≤ pageSize) "The Graph returned an oversized V4 page"
  Fallible.demand (strictlyOrdered after page.pools = true) "The Graph V4 page is not strictly ordered by pool id"

def countAccepted (expectedCount : Option Nat) (observed : List Nat) (count : Nat) : Bool :=
  match expectedCount with
  | none => observed.getLast? = some count
  | some expected => count = expected

def countError (expectedCount : Option Nat) (observed : List Nat) (count : Nat) : String :=
  match expectedCount with
  | none =>
    s!"The Graph V4 initial poolCount did not stabilize after {pageCountAttempts} attempts: " ++
      ", ".intercalate (observed.map toString)
  | some expected => s!"The Graph V4 poolCount mismatch after {pageCountAttempts} attempts: expected {expected}, actual {count}"

def acceptPage (subgraphId : String) (pin : Pin) (after : Digest) (expectedCount : Option Nat) :
    List Nat → Option String → Option Digest → List (Except String PageReply) → Except String Accepted
  | _, _, _, [] => .error "the process stopped"
  | observed, deployment, generation, answer :: rest => do
    let page ← answer
    checkPage config subgraphId pin after deployment generation page
    let own := config.snapshotGeneration subgraphId page.deployment pin.block pin.blockHash
    if countAccepted expectedCount observed page.poolCount then
      return { pools := page.pools, count := page.poolCount, deployment := page.deployment, generation := own, rest := rest }
    else if observed.length + 1 = pageCountAttempts then
      .error (countError expectedCount (observed ++ [page.poolCount]) page.poolCount)
    else acceptPage subgraphId pin after expectedCount (observed ++ [page.poolCount]) (some page.deployment) (some own) rest

def graphIdentity (row : ParsedPool) (generation : Digest) : V4Pool :=
  { poolId := row.id, poolManager := config.poolManager, currency0 := row.currency0, currency1 := row.currency1,
    keyFeePpm := none, tickSpacing := row.tickSpacing, hooks := row.hooks, createdBlock := none,
    snapshotGeneration := some generation }

def sameIdentity (row : ParsedPool) (existing : V4Pool) : Bool :=
  existing.poolManager = config.poolManager && existing.currency0 = row.currency0 && existing.currency1 = row.currency1 &&
    existing.tickSpacing = row.tickSpacing && existing.hooks = row.hooks

def assertExistingIdentity (row : ParsedPool) (db : Database) : Except String Unit :=
  Fallible.demand (∀ existing ∈ db.v4Pools.get? row.id, sameIdentity config row existing = true)
    s!"existing v4 pool {row.id} conflicts with The Graph snapshot"

/-- `INSERT OR IGNORE` protects an event-verified identity; an existing row is counted in the generation. -/
def writeGraphIdentity (generation : Digest) (row : ParsedPool) (db : Database) : Except String Database :=
  if v4PoolIsNew (graphIdentity config row generation) db then insertV4Pool (graphIdentity config row generation) db
  else setV4SnapshotGeneration row.id generation db

def storeGraphIdentity (generation : Digest) (row : ParsedPool) (db : Database) : Except String (Database × Bool) := do
  assertExistingIdentity config row db
  let stored ← writeGraphIdentity config generation row db
  return (stored, v4PoolIsNew (graphIdentity config row generation) db)

def storeRow (generation : Digest) (stored : Database × Nat) (row : ParsedPool) : Except String (Database × Nat) := do
  let (db, isNew) ← storeGraphIdentity config generation row stored.1
  return (db, if isNew then stored.2 + 1 else stored.2)

def Progress.next (progress : Progress) (accepted : Accepted) (added : Nat) : Progress where
  after := ((accepted.pools.getLast?).map ParsedPool.id).getD progress.after
  downloaded := progress.downloaded + accepted.pools.length
  expectedCount := some (progress.expectedCount.getD accepted.count)
  deployment := some accepted.deployment
  generation := some accepted.generation
  added := added
  named := progress.named ++ accepted.pools.map ParsedPool.id

def inflightOf (subgraphId : String) (pin : Pin) (next : Progress) (accepted : Accepted) : Inflight where
  block := pin.block
  blockHash := pin.blockHash
  subgraphId := subgraphId
  after := next.after
  downloaded := next.downloaded
  poolCount := next.expectedCount.getD 0
  deployment := accepted.deployment
  generation := accepted.generation
  named := next.named

def storePage (subgraphId : String) (pin : Pin) (progress : Progress) (accepted : Accepted) (s : Directory) :
    Except String (Directory × Progress) := do
  let (db, added) ← accepted.pools.foldlM (storeRow config accepted.generation) (s.db, progress.added)
  let next := progress.next accepted added
  return ({ s with db := db, inflight := some (inflightOf subgraphId pin next accepted) }, next)

def canResume (a : Attempt) (indexedBlock : Nat) (db : Database) (r : Inflight) : Bool :=
  r.subgraphId = a.subgraphId && 0 < r.block && r.block ≤ indexedBlock && r.block ≤ a.targetBlock &&
    a.targetBlock - r.block ≤ a.maxLagBlocks && 0 < r.downloaded && 0 < r.poolCount && r.deployment ≠ "" &&
    r.generation = config.snapshotGeneration a.subgraphId r.deployment r.block r.blockHash &&
    generationCount r.generation db = r.downloaded

def resumedProgress (r : Inflight) : Progress where
  after := r.after
  downloaded := r.downloaded
  expectedCount := some r.poolCount
  deployment := some r.deployment
  generation := some r.generation
  added := 0
  named := r.named

def freshProgress : Progress where
  after := zeroPoolId
  downloaded := 0
  expectedCount := none
  deployment := none
  generation := none
  added := 0
  named := []

def startOf (a : Attempt) (indexedBlock : Nat) (s : Directory) : Except String (Pin × Progress) :=
  match s.inflight.filter (canResume config a indexedBlock s.db) with
  | some r => do
    let rpcHash ← a.pinHash r.block
    Fallible.demand (rpcHash = r.blockHash)
      s!"The Graph V4 snapshot block {r.block} hash {r.blockHash} does not match canonical RPC hash {rpcHash}"
    return (⟨r.block, r.blockHash⟩, resumedProgress r)
  | none => do
    let block := min indexedBlock a.targetBlock
    Fallible.demand (a.targetBlock - block ≤ a.maxLagBlocks)
      s!"The Graph V4 snapshot lags the finalized chain head by {a.targetBlock - block} blocks; maximum is {a.maxLagBlocks}"
    let hash ← a.pinHash block
    return (⟨block, hash⟩, freshProgress)

def publishSnapshot (a : Attempt) (pin : Pin) (progress : Progress) (deployment : String) (generation : Digest) (s : Directory) :
    Except String Directory := do
  let db ← deleteStaleV4SnapshotCandidates generation s.db
  let db ← setGenerationKey generation
    { db with keys := { db.keys with v4SnapshotPoolCount := some progress.downloaded } }
  return {
    db := { db with keys := { db.keys with v4SnapshotComplete := true } }
    inflight := none
    provenance := some { block := pin.block, blockHash := pin.blockHash, subgraphId := a.subgraphId,
                         deployment := deployment, cursor := pin.block } }

def checkComplete (a : Attempt) (pin : Pin) (progress : Progress) (generation : Digest) (db : Database) : Except String Unit := do
  Fallible.demand (0 < progress.expectedCount.getD 0 ∧ progress.expectedCount = some progress.downloaded)
    s!"The Graph V4 snapshot is incomplete: downloaded {progress.downloaded}/{progress.expectedCount.getD 0} pools"
  Fallible.demand (generationCount generation db = progress.downloaded)
    s!"The Graph V4 snapshot generation is incomplete: stored {generationCount generation db}/{progress.downloaded} pools"
  let rpcHash ← a.publishHash pin.block
  Fallible.demand (rpcHash = pin.blockHash)
    s!"The Graph V4 snapshot block {pin.block} hash {pin.blockHash} does not match canonical RPC hash {rpcHash}"

def finishImport (a : Attempt) (pin : Pin) (progress : Progress) (deployment : String) (generation : Digest) :
    Durable String Directory SnapshotResult := do
  let s ← Durable.read
  Durable.reply (checkComplete a pin progress generation s.db)
  Durable.tryWrite (publishSnapshot a pin progress deployment generation)
  return { added := progress.added, block := pin.block, blockHash := pin.blockHash, downloaded := progress.downloaded,
           deployment := deployment, generation := generation, named := progress.named }

def importPages (a : Attempt) (pin : Pin) : Nat → Progress → List (Except String PageReply) → Durable String Directory SnapshotResult
  | 0, _, _ => Durable.fail "the process stopped"
  | rounds + 1, progress, answers => do
    let accepted ← Durable.reply
      (acceptPage config a.subgraphId pin progress.after progress.expectedCount [] progress.deployment progress.generation answers)
    let s ← Durable.read
    let (stored, next) ← Durable.reply (storePage config a.subgraphId pin progress accepted s)
    Durable.write fun _ => stored
    if accepted.pools.length < pageSize then finishImport a pin next accepted.deployment accepted.generation
    else importPages a pin rounds next accepted.rest

def importBscV4Snapshot (a : Attempt) : Durable String Directory SnapshotResult := do
  Durable.reply (Fallible.demand (0 < a.targetBlock) "invalid finalized target block for V4 snapshot")
  let indexedBlock ← Durable.reply a.indexedBlock
  let s ← Durable.read
  let (pin, progress) ← Durable.reply (startOf config a indexedBlock s)
  importPages config a pin a.pages.length progress a.pages

structure InitializeEvent where
  id : Digest
  currency0 : Address
  currency1 : Address
  fee : Nat
  tickSpacing : Nat
  hooks : Address
  block : Nat

def eventIdentity (event : InitializeEvent) : V4Pool :=
  { poolId := event.id, poolManager := config.poolManager, currency0 := event.currency0, currency1 := event.currency1,
    keyFeePpm := some event.fee, tickSpacing := event.tickSpacing, hooks := event.hooks, createdBlock := some event.block,
    snapshotGeneration := none }

/-- The writes of `storeInitialize`: an event row carries no snapshot label. -/
def storeEvent (event : InitializeEvent) (db : Database) : Except String Database :=
  if v4PoolIsNew (eventIdentity config event) db then insertV4Pool (eventIdentity config event) db
  else setV4EventIdentity event.id event.fee event.block db

inductive SnapshotStep
  | importSnapshot (a : Attempt)
  | storeInitialize (event : InitializeEvent)

def snapshotStep (s : Directory) : SnapshotStep → Directory
  | .importSnapshot a => (importBscV4Snapshot config a).left s
  | .storeInitialize event =>
    match storeEvent config event s.db with
    | .ok db => { s with db := db }
    | .error _ => s

end Import

variable {config : SnapshotConfig} {db db' : Database} {generation : Digest}

def rowsOf (db : Database) (generation : Digest) : List Membership :=
  db.v4PoolSnapshotMembership.rows.filter fun row => row.snapshotGeneration = generation

def poolIdsOf (db : Database) (generation : Digest) : List Digest := (rowsOf db generation).map Membership.poolId

theorem generationCount_eq : generationCount generation db = (poolIdsOf db generation).length := by
  unfold generationCount poolIdsOf rowsOf
  rw [List.length_map, List.countP_eq_length_filter]

theorem mem_poolIdsOf {poolId : Digest} : poolId ∈ poolIdsOf db generation ↔ isMember db generation poolId = true := by
  rw [isMember_iff]
  unfold poolIdsOf rowsOf
  simp only [List.mem_map, List.mem_filter, decide_eq_true_eq, and_assoc]

theorem poolIdsOf_perm {named : List Digest} (distinct : named.Nodup) (members : ∀ id ∈ named, isMember db generation id = true)
    (counted : generationCount generation db = named.length) : (poolIdsOf db generation).Perm named := by
  have sub : List.Subperm named (poolIdsOf db generation) :=
    List.subperm_of_subset distinct fun id inside => mem_poolIdsOf.mpr (members id inside)
  refine (sub.perm_of_length_le ?_).symm
  rw [← generationCount_eq, counted]

structure Stored (generation : Digest) (ids : List Digest) (db db' : Database) : Prop where
  keys : db'.keys = db.keys
  members : ∀ id ∈ ids, isMember db' generation id = true
  grows : ∀ other id, isMember db other id = true → isMember db' other id = true
  others : ∀ other, other ≠ generation → rowsOf db' other = rowsOf db other
  idle : (∀ id ∈ ids, isMember db generation id = true) → db'.v4PoolSnapshotMembership = db.v4PoolSnapshotMembership
  pools : ∀ pool ∈ db.v4Pools.rows, pool ∈ db'.v4Pools.rows
  matched : Matched db → Matched db'

theorem Stored.trans {first second : List Digest} {middle : Database} (one : Stored generation first db middle)
    (two : Stored generation second middle db') : Stored generation (first ++ second) db db' where
  keys := two.keys.trans one.keys
  members id inside := by
    rcases List.mem_append.mp inside with early | late
    · exact two.grows generation id (one.members id early)
    · exact two.members id late
  grows other id member := two.grows other id (one.grows other id member)
  others other apart := (two.others other apart).trans (one.others other apart)
  idle all := by
    have middleSame := one.idle fun id inside => all id (List.mem_append_left _ inside)
    refine (two.idle fun id inside => ?_).trans middleSame
    exact one.grows generation id (all id (List.mem_append_right _ inside))
  pools pool member := two.pools pool (one.pools pool member)
  matched before := two.matched (one.matched before)

theorem stored_nil (generation : Digest) (db : Database) : Stored generation [] db db :=
  ⟨rfl, fun _ inside => by (cases inside), fun _ _ member => member, fun _ _ => rfl, fun _ => rfl, fun _ member => member, id⟩

theorem insertMembership_stored {row : Membership} (ordered : row.token0 < row.token1) (ran : insertMembership row db = .ok db') :
    Stored row.snapshotGeneration [row.poolId] db db' := by
  have keyRead : ∀ generation poolId, isMember db generation poolId = (db.v4PoolSnapshotMembership.get? (toLex (generation, poolId))).isSome :=
    fun _ _ => rfl
  have matched : Matched db → Matched db' := fun before => matched_insertMembership before ran
  unfold insertMembership at ran
  split at ran
  · split at ran
    · rename_i fresh
      cases ran
      refine ⟨rfl, fun id inside => ?_, fun other id member => ?_, fun other apart => ?_, fun all => ?_, fun _ member => member, matched⟩
      · obtain rfl := List.mem_singleton.mp inside
        exact isMember_iff.mpr ⟨row, Table.mem_put.mpr (Or.inl rfl), rfl, rfl⟩
      · obtain ⟨old, inside, own, named⟩ := isMember_iff.mp member
        refine isMember_iff.mpr ⟨old, Table.mem_put.mpr (Or.inr ⟨inside, ?_⟩), own, named⟩
        exact Table.not_mem_of_get? (Option.isNone_iff_eq_none.mp fresh.1) inside
      · -- A row of another generation keeps its place in the sorted table.
        unfold rowsOf
        have perm := (Table.put_perm_new (Option.isNone_iff_eq_none.mp fresh.1)).filter
          fun found : Membership => found.snapshotGeneration = other
        rw [List.filter_cons, if_neg (by simpa using Ne.symm apart)] at perm
        exact perm.eq_of_pairwise (fun _ _ _ _ before after => absurd (before.trans after) (lt_irrefl _))
          ((Table.put db.v4PoolSnapshotMembership row).sorted.filter _) (db.v4PoolSnapshotMembership.sorted.filter _)
      · have there := all row.poolId List.mem_cons_self
        rw [keyRead] at there
        have missing : db.v4PoolSnapshotMembership.get? (toLex (row.snapshotGeneration, row.poolId)) = none :=
          Option.isNone_iff_eq_none.mp fresh.1
        rw [missing] at there
        cases there
    · rename_i refused
      cases ran
      have there : isMember db row.snapshotGeneration row.poolId = true := by
        rw [keyRead]
        refine Option.isSome_iff_ne_none.mpr fun missing => refused ⟨?_, ordered⟩
        exact Option.isNone_iff_eq_none.mpr missing
      refine ⟨rfl, fun id inside => ?_, fun _ _ member => member, fun _ _ => rfl, fun _ => rfl, fun _ member => member, matched⟩
      obtain rfl := List.mem_singleton.mp inside
      exact there
  · cases ran

theorem canonical_of_lt {token0 token1 : Address} (ordered : token0 < token1) : canonical token0 token1 = toLex (token0, token1) :=
  if_pos ordered

theorem storeRow_stored {row : ParsedPool} {stored stored' : Database × Nat} (ran : storeRow config generation stored row = .ok stored') :
    Stored generation [row.id] stored.1 stored'.1 := by
  obtain ⟨⟨final, isNew⟩, one, rest⟩ := Fallible.bind_ok ran
  cases rest
  obtain ⟨_, asserted, one⟩ := Fallible.bind_ok one
  have identity := Fallible.demand_ok.mp asserted
  obtain ⟨written, store, done⟩ := Fallible.bind_ok one
  cases done
  have ordered : ∀ pool : V4Pool, pool.currency0 = row.currency0 → pool.currency1 = row.currency1 →
      (membershipOf generation pool).token0 < (membershipOf generation pool).token1 := by
    intro pool first second
    unfold membershipOf V4Pool.pair
    rw [first, second, canonical_of_lt row.ordered]
    exact row.ordered
  unfold writeGraphIdentity at store
  split at store
  · rename_i fresh
    have matched : Matched stored.1 → Matched final := fun before => matched_insertV4Pool before store
    unfold insertV4Pool at store
    rw [if_pos fresh] at store
    have kept := insertMembership_stored (ordered (graphIdentity config row generation) rfl rfl) store
    refine { kept with matched := matched, pools := fun pool member => kept.pools pool (Table.mem_put.mpr (Or.inr ⟨member, ?_⟩)) }
    exact Table.not_mem_of_get? (Option.isNone_iff_eq_none.mp fresh) member
  · unfold setV4SnapshotGeneration at store
    split at store
    · cases store
    · rename_i existing read
      have same := identity existing read
      simp only [sameIdentity, Bool.and_eq_true, decide_eq_true_eq] at same
      have kept := insertMembership_stored (ordered existing same.1.1.1.2 same.1.1.2) store
      have id : existing.poolId = row.id := Table.get?_key read
      unfold membershipOf at kept
      dsimp only at kept
      rw [id] at kept
      exact kept

theorem storeRows_stored {rows : List ParsedPool} : ∀ {stored stored' : Database × Nat},
    rows.foldlM (storeRow config generation) stored = .ok stored' →
      Stored generation (rows.map ParsedPool.id) stored.1 stored'.1 := by
  induction rows with
  | nil =>
    intro stored stored' ran
    cases ran
    exact stored_nil generation stored.1
  | cons row rest ih =>
    intro stored stored' ran
    rw [List.foldlM_cons] at ran
    obtain ⟨middle, one, later⟩ := Fallible.bind_ok ran
    exact (storeRow_stored one).trans (ih later)

/-- What an import has walked: ids in order up to the cursor, each a member of its generation. -/
structure Walked (db : Database) (progress : Progress) : Prop where
  ascending : progress.named.Pairwise (· < ·)
  bounded : ∀ id ∈ progress.named, id ≤ progress.after
  counted : progress.downloaded = progress.named.length
  members : ∀ id ∈ progress.named, ∃ generation, progress.generation = some generation ∧ isMember db generation id = true

theorem walked_fresh (db : Database) : Walked db freshProgress :=
  ⟨List.Pairwise.nil, fun _ inside => by (cases inside), rfl, fun _ inside => by (cases inside)⟩

theorem strictlyOrdered_ids {rows : List ParsedPool} {previous : Digest} (ordered : strictlyOrdered previous rows = true) :
    (rows.map ParsedPool.id).Pairwise (· < ·) ∧ ∀ id ∈ rows.map ParsedPool.id, previous < id := by
  induction rows generalizing previous with
  | nil => exact ⟨List.Pairwise.nil, fun _ inside => by (cases inside)⟩
  | cons row rest ih =>
    unfold strictlyOrdered at ordered
    rw [Bool.and_eq_true, decide_eq_true_eq] at ordered
    obtain ⟨ascending, above⟩ := ih ordered.2
    refine ⟨List.pairwise_cons.mpr ⟨above, ascending⟩, fun id inside => ?_⟩
    rcases List.mem_cons.mp inside with rfl | later
    · exact ordered.1
    · exact ordered.1.trans (above id later)

theorem last_bounds {ids : List Digest} {last : Digest} (ascending : ids.Pairwise (· < ·)) (read : ids.getLast? = some last) :
    ∀ id ∈ ids, id ≤ last := by
  obtain ⟨front, rfl⟩ := List.getLast?_eq_some_iff.mp read
  intro id inside
  rcases List.mem_append.mp inside with early | final
  · exact ((List.pairwise_append.mp ascending).2.2 id early last List.mem_cons_self).le
  · exact (List.mem_singleton.mp final).le

variable {progress : Progress} {accepted : Accepted}

theorem Walked.next {added : Nat} (walked : Walked db progress)
    (ordered : strictlyOrdered progress.after accepted.pools = true)
    (own : progress.generation = none ∨ progress.generation = some accepted.generation)
    (stored : Stored accepted.generation (accepted.pools.map ParsedPool.id) db db') :
    Walked db' (progress.next accepted added) := by
  obtain ⟨ascending, above⟩ := strictlyOrdered_ids ordered
  have after : ∀ id ∈ accepted.pools.map ParsedPool.id, id ≤ (progress.next accepted added).after := by
    intro id inside
    unfold Progress.next
    dsimp only
    rw [← List.getLast?_map]
    cases read : (accepted.pools.map ParsedPool.id).getLast? with
    | none =>
      rw [List.getLast?_eq_none_iff.mp read] at inside
      cases inside
    | some last => exact last_bounds ascending read id inside
  have later : progress.after ≤ (progress.next accepted added).after := by
    unfold Progress.next
    dsimp only
    rw [← List.getLast?_map]
    cases read : (accepted.pools.map ParsedPool.id).getLast? with
    | none => exact le_refl _
    | some last => exact (above last (List.mem_of_getLast? read)).le
  refine ⟨List.pairwise_append.mpr ⟨walked.ascending, ascending, fun id early other late => ?_⟩, fun id inside => ?_, ?_,
    fun id inside => ⟨accepted.generation, rfl, ?_⟩⟩
  · exact lt_of_le_of_lt (walked.bounded id early) (above other late)
  · rcases List.mem_append.mp inside with early | late
    · exact (walked.bounded id early).trans later
    · exact after id late
  · unfold Progress.next
    rw [List.length_append, List.length_map, walked.counted]
  · rcases List.mem_append.mp inside with early | late
    · obtain ⟨generation, known, member⟩ := walked.members id early
      rcases own with unknown | same
      · rw [unknown] at known
        cases known
      · rw [same] at known
        cases known
        exact stored.grows _ id member
    · exact stored.members id late

variable {pin : Pin}

theorem acceptPage_ok {subgraphId : String} {after : Digest} {expectedCount : Option Nat} {observed : List Nat}
    {deployment : Option String} {known : Option Digest} {answers : List (Except String PageReply)}
    (ran : acceptPage config subgraphId pin after expectedCount observed deployment known answers = .ok accepted) :
    strictlyOrdered after accepted.pools = true ∧
      (∃ page, .ok page ∈ answers ∧ page.pools = accepted.pools ∧
        accepted.generation = config.snapshotGeneration subgraphId page.deployment pin.block pin.blockHash) ∧
      (known = none ∨ known = some accepted.generation) ∧ ∀ answer ∈ accepted.rest, answer ∈ answers := by
  induction answers generalizing observed deployment known with
  | nil => cases ran
  | cons answer rest ih =>
    unfold acceptPage at ran
    obtain ⟨page, told, body⟩ := Fallible.bind_ok ran
    obtain ⟨_, checked, decided⟩ := Fallible.bind_ok body
    subst told
    have facts : (known = none ∨ known = some (config.snapshotGeneration subgraphId page.deployment pin.block pin.blockHash)) ∧
        strictlyOrdered after page.pools = true := by
      unfold checkPage at checked
      iterate 4 obtain ⟨_, _, checked⟩ := Fallible.bind_ok checked
      obtain ⟨_, same, checked⟩ := Fallible.bind_ok checked
      obtain ⟨_, _, ordered⟩ := Fallible.bind_ok checked
      exact ⟨Fallible.demand_ok.mp same, Fallible.demand_ok.mp ordered⟩
    dsimp only at decided
    split at decided
    · cases decided
      exact ⟨facts.2, ⟨page, List.mem_cons_self, rfl, rfl⟩, facts.1, fun _ inside => List.mem_cons_of_mem _ inside⟩
    · split at decided
      · cases decided
      · obtain ⟨ordered, ⟨other, inside, pools, own⟩, same, later⟩ := ih decided
        rcases same with unknown | same
        · cases unknown
        · exact ⟨ordered, ⟨other, List.mem_cons_of_mem _ inside, pools, own⟩, Option.some.inj same ▸ facts.1,
            fun answer member => List.mem_cons_of_mem _ (later answer member)⟩

/-- Nothing published moved, no identity is gone, and the resume point is a walk. -/
structure Held (s0 s : Directory) : Prop where
  keys : s.db.keys = s0.db.keys
  published : ∀ generation, s0.db.keys.v4SnapshotGeneration = some generation → rowsOf s.db generation = rowsOf s0.db generation
  grows : ∀ generation id, isMember s0.db generation id = true → isMember s.db generation id = true
  pools : ∀ pool ∈ s0.db.v4Pools.rows, pool ∈ s.db.v4Pools.rows
  inflight : ∀ r, s.inflight = some r → Walked s.db (resumedProgress r)
  matched : Matched s.db

/-- What a successful import published, and what its garbage collection took. -/
structure Publishes (s0 s : Directory) (result : SnapshotResult) : Prop where
  generation : s.db.keys.v4SnapshotGeneration = some result.generation
  poolCount : s.db.keys.v4SnapshotPoolCount = some result.downloaded
  ascending : result.named.Pairwise (· < ·)
  stored : (poolIdsOf s.db result.generation).Perm result.named
  counted : result.downloaded = result.named.length ∧ 0 < result.downloaded
  cleared : s.inflight = none
  matched : Matched s.db
  removed : ∀ pool ∈ s0.db.v4Pools.rows, s.db.v4Pools.get? pool.poolId = none →
    pool.poolId ∉ result.named ∧ pool.eventProven = false

def AnswerWithin (config : SnapshotConfig) (s : Directory) (a : Attempt) (pin : Pin) : Except String PageReply → Prop
  | .error _ => True
  | .ok page =>
    s.db.keys.v4SnapshotGeneration = some (config.snapshotGeneration a.subgraphId page.deployment pin.block pin.blockHash) →
      ∀ row ∈ page.pools,
        isMember s.db (config.snapshotGeneration a.subgraphId page.deployment pin.block pin.blockHash) row.id = true

def PagesWithin (config : SnapshotConfig) (s : Directory) (a : Attempt) (pin : Pin) (answers : List (Except String PageReply)) : Prop :=
  ∀ answer ∈ answers, AnswerWithin config s a pin answer

variable {a : Attempt}

theorem storePage_held {s0 s stored : Directory} {progress next : Progress}
    {answers : List (Except String PageReply)} (held : Held s0 s) (walked : Walked s.db progress)
    (within : PagesWithin config s0 a pin answers)
    (ordered : strictlyOrdered progress.after accepted.pools = true)
    (source : ∃ page, .ok page ∈ answers ∧ page.pools = accepted.pools ∧
      accepted.generation = config.snapshotGeneration a.subgraphId page.deployment pin.block pin.blockHash)
    (own : progress.generation = none ∨ progress.generation = some accepted.generation)
    (ran : storePage config a.subgraphId pin progress accepted s = .ok (stored, next)) :
    Held s0 stored ∧ Walked stored.db next ∧ next.generation = some accepted.generation := by
  obtain ⟨⟨db, added⟩, rows, done⟩ := Fallible.bind_ok ran
  cases done
  have kept := storeRows_stored rows
  have carried : Walked db (progress.next accepted added) := walked.next ordered own kept
  refine ⟨⟨kept.keys.trans held.keys, fun generation published => ?_, fun generation id member => ?_, fun pool member => ?_,
    fun r known => ?_, kept.matched held.matched⟩, carried, rfl⟩
  · obtain ⟨page, inside, pools, generationEq⟩ := source
    by_cases same : generation = accepted.generation
    · -- Only the published generation itself needs the condition: its pages name members alone.
      subst same
      have members := within _ inside (by rw [← generationEq]; exact published)
      rw [← generationEq, pools] at members
      have idle := kept.idle fun id named => by
        obtain ⟨row, listed, rfl⟩ := List.mem_map.mp named
        exact held.grows _ _ (members row listed)
      unfold rowsOf
      rw [idle]
      exact held.published _ published
    · exact (kept.others generation same).trans (held.published generation published)
  · exact kept.grows generation id (held.grows generation id member)
  · exact kept.pools pool (held.pools pool member)
  · cases known
    exact ⟨carried.ascending, carried.bounded, carried.counted, carried.members⟩

theorem labelMembers_get? {poolId : Digest} :
    (labelMembers generation db).get? poolId = (db.v4Pools.get? poolId).map fun pool =>
      if isMember db generation pool.poolId then { pool with snapshotGeneration := some generation } else pool :=
  Table.get?_adjust

theorem collected_gone (collected : Collected generation db db') {pool : V4Pool} (member : pool ∈ db.v4Pools.rows)
    (gone : db'.v4Pools.get? pool.poolId = none) : isMember db generation pool.poolId = false ∧ pool.eventProven = false := by
  have read : (labelMembers generation db).get? pool.poolId = some
      (if isMember db generation pool.poolId then { pool with snapshotGeneration := some generation } else pool) := by
    rw [labelMembers_get?, Table.get?_of_mem member]
    rfl
  have out := fun stays => Table.not_mem_of_get? gone ((collected.pools _).mpr ⟨Table.get?_mem read, stays⟩)
  split at out <;> rename_i label
  · exact absurd rfl (out (Or.inl label))
  · refine ⟨by simpa using label, ?_⟩
    by_contra proven
    exact out (Or.inr (by simpa using proven)) rfl

theorem publishSnapshot_publishes {s0 s s' : Directory} {deployment : String}
    (held : Held s0 s) (walked : Walked s.db progress) (own : progress.generation = some generation)
    (counted : generationCount generation s.db = progress.downloaded)
    (ran : publishSnapshot a pin progress deployment generation s = .ok s') :
    Publishes s0 s' { added := progress.added, block := pin.block, blockHash := pin.blockHash, downloaded := progress.downloaded,
                      deployment := deployment, generation := generation, named := progress.named } := by
  obtain ⟨armed, arming, ran⟩ := Fallible.bind_ok ran
  obtain ⟨switched, switching, done⟩ := Fallible.bind_ok ran
  cases done
  unfold deleteStaleV4SnapshotCandidates at arming
  split at arming
  · cases arming
  rename_i some_members
  cases arming
  unfold setGenerationKey at switching
  rw [if_pos rfl] at switching
  split at switching
  · have collected := gc_collected switching
    have swept : Matched switched := by
      have before : Matched { s.db with keys := { s.db.keys with
          v4SnapshotPublishGeneration := some generation
          v4SnapshotPoolCount := some progress.downloaded
          v4SnapshotGeneration := some generation } } := held.matched
      exact matched_gc before switching
    have members : ∀ id ∈ progress.named, isMember s.db generation id = true := by
      intro id inside
      obtain ⟨other, known, member⟩ := walked.members id inside
      rw [own] at known
      cases known
      exact member
    have distinct : progress.named.Nodup := walked.ascending.imp fun before => before.ne
    have perm := poolIdsOf_perm distinct members (counted.trans walked.counted)
    have same : poolIdsOf switched generation = poolIdsOf s.db generation := by
      unfold poolIdsOf rowsOf
      rw [collected.memberships]
      unfold Table.keep
      rw [List.filter_filter]
      simp
    refine ⟨by rw [collected.keys], by rw [collected.keys], walked.ascending, ?_, ⟨walked.counted, ?_⟩, rfl, swept,
      fun pool member gone => ?_⟩
    · exact (List.Perm.of_eq same).trans perm
    · rw [← counted]
      exact Nat.pos_of_ne_zero some_members
    · obtain ⟨stranger, unproven⟩ := collected_gone collected (held.pools pool member) gone
      refine ⟨fun inside => ?_, unproven⟩
      have known := members pool.poolId inside
      exact absurd (known.symm.trans stranger) (by simp)
  · cases switching

theorem finishImport_spec {s0 s : Directory} {deployment : String}
    (held : Held s0 s) (walked : Walked s.db progress) (own : progress.generation = some generation) :
    Durable.Triple (· = s) (finishImport a pin progress deployment generation)
      (fun result s' => Publishes s0 s' result) (fun s' => Held s0 s') := by
  unfold finishImport
  refine Durable.triple_read_at (Durable.triple_reply_at (fun _ checked => ?_) fun _ _ => held)
  have counted : generationCount generation s.db = progress.downloaded := by
    unfold checkComplete at checked
    obtain ⟨_, _, checked⟩ := Fallible.bind_ok checked
    obtain ⟨_, stored, _⟩ := Fallible.bind_ok checked
    exact Fallible.demand_ok.mp stored
  refine Durable.triple_tryWrite_at (fun s' ran => Durable.triple_pure fun after same => ?_) fun _ _ => held
  subst same
  exact publishSnapshot_publishes held walked own counted ran

theorem importPages_spec {s0 : Directory} {rounds : Nat} : ∀ {s : Directory} {progress : Progress}
    {answers : List (Except String PageReply)}, PagesWithin config s0 a pin answers → Held s0 s → Walked s.db progress →
      Durable.Triple (· = s) (importPages config a pin rounds progress answers)
        (fun result s' => Publishes s0 s' result) (fun s' => Held s0 s') := by
  induction rounds with
  | zero =>
    intro s progress answers _ held _
    exact Durable.triple_fail fun s' same => same ▸ held
  | succ rounds ih =>
    intro s progress answers within held walked
    unfold importPages
    refine Durable.triple_reply_at (fun accepted page => ?_) fun _ _ => held
    obtain ⟨ordered, source, own, later⟩ := acceptPage_ok page
    refine Durable.triple_read_at (Durable.triple_reply_at (fun stored written => ?_) fun _ _ => held)
    obtain ⟨s', next⟩ := stored
    obtain ⟨kept, carried, generationEq⟩ := storePage_held held walked within ordered source own written
    refine Durable.triple_write_at ?_
    split
    · exact finishImport_spec kept carried generationEq
    · exact ih (fun answer inside => within answer (later answer inside)) kept carried

def Agrees (s : Directory) : Prop :=
  ∀ generation, s.db.keys.v4SnapshotGeneration = some generation →
    s.db.keys.v4SnapshotPoolCount = some (generationCount generation s.db) ∧ 0 < generationCount generation s.db

structure Sound (s : Directory) : Prop where
  agrees : Agrees s
  inflight : ∀ r, s.inflight = some r → Walked s.db (resumedProgress r)
  matched : Matched s.db

def StaysWithin (config : SnapshotConfig) (s : Directory) : SnapshotStep → Prop
  | .storeInitialize _ => True
  | .importSnapshot a =>
    match a.indexedBlock with
    | .error _ => True
    | .ok indexedBlock =>
      match startOf config a indexedBlock s with
      | .error _ => True
      | .ok (pin, _) => PagesWithin config s a pin a.pages

instance {s : Directory} {a : Attempt} {pin : Pin} : ∀ answer, Decidable (AnswerWithin config s a pin answer)
  | .error _ => .isTrue trivial
  | .ok page => inferInstanceAs (Decidable (
      s.db.keys.v4SnapshotGeneration = some (config.snapshotGeneration a.subgraphId page.deployment pin.block pin.blockHash) →
        ∀ row ∈ page.pools,
          isMember s.db (config.snapshotGeneration a.subgraphId page.deployment pin.block pin.blockHash) row.id = true))

instance {s : Directory} : ∀ step, Decidable (StaysWithin config s step)
  | .storeInitialize _ => .isTrue trivial
  | .importSnapshot a =>
    match indexed : a.indexedBlock with
    | .error _ => .isTrue (by unfold StaysWithin; dsimp only; rw [indexed]; trivial)
    | .ok indexedBlock =>
      match started : startOf config a indexedBlock s with
      | .error _ => .isTrue (by unfold StaysWithin; dsimp only; rw [indexed]; dsimp only; rw [started]; trivial)
      | .ok (pin, _) =>
        decidable_of_iff (∀ answer ∈ a.pages, AnswerWithin config s a pin answer)
          (by unfold StaysWithin; dsimp only; rw [indexed]; dsimp only; rw [started]; rfl)

variable {s : Directory}

theorem startOf_walked {indexedBlock : Nat} (sound : Sound s)
    (ran : startOf config a indexedBlock s = .ok (pin, progress)) : Walked s.db progress := by
  unfold startOf at ran
  split at ran
  · rename_i r found
    iterate 2 obtain ⟨_, _, ran⟩ := Fallible.bind_ok ran
    cases ran
    exact sound.inflight r (Option.filter_eq_some_iff.mp found).1
  · obtain ⟨_, _, ran⟩ := Fallible.bind_ok ran
    obtain ⟨_, _, ran⟩ := Fallible.bind_ok ran
    cases ran
    exact walked_fresh s.db

theorem sound_held (sound : Sound s) : Held s s :=
  ⟨rfl, fun _ _ => rfl, fun _ _ member => member, fun _ member => member, sound.inflight, sound.matched⟩

theorem importBscV4Snapshot_spec (sound : Sound s) (within : StaysWithin config s (.importSnapshot a)) :
    Durable.Triple (· = s) (importBscV4Snapshot config a) (fun result s' => Publishes s s' result) (fun s' => Held s s') := by
  have held := sound_held sound
  unfold importBscV4Snapshot
  refine Durable.triple_reply_at (fun _ _ => Durable.triple_reply_at (fun indexedBlock indexed => ?_) fun _ _ => held) fun _ _ => held
  refine Durable.triple_read_at (Durable.triple_reply_at (fun start started => ?_) fun _ _ => held)
  obtain ⟨pin, progress⟩ := start
  have pages : PagesWithin config s a pin a.pages := by
    unfold StaysWithin at within
    dsimp only at within
    rw [indexed] at within
    dsimp only at within
    rw [started] at within
    exact within
  exact importPages_spec pages held (startOf_walked sound started)

theorem held_sound {s s' : Directory} (sound : Sound s) (held : Held s s') : Sound s' where
  agrees generation published := by
    rw [held.keys] at published ⊢
    have same : generationCount generation s'.db = generationCount generation s.db := by
      rw [generationCount_eq, generationCount_eq, poolIdsOf, poolIdsOf, held.published generation published]
    rw [same]
    exact sound.agrees generation published
  inflight := held.inflight
  matched := held.matched

theorem publishes_sound {s s' : Directory} {result : SnapshotResult} (publishes : Publishes s s' result) : Sound s' where
  agrees generation published := by
    rw [publishes.generation] at published
    obtain rfl := Option.some.inj published
    have counted : generationCount result.generation s'.db = result.downloaded := by
      rw [generationCount_eq, publishes.stored.length_eq, publishes.counted.1]
    rw [counted]
    exact ⟨publishes.poolCount, publishes.counted.2⟩
  inflight r known := by
    rw [publishes.cleared] at known
    cases known
  matched := publishes.matched

/-- An event leaves every key and membership, and every identity a row. -/
structure Undisturbed (s s' : Directory) : Prop where
  keys : s'.db.keys = s.db.keys
  memberships : s'.db.v4PoolSnapshotMembership = s.db.v4PoolSnapshotMembership
  pools : ∀ pool ∈ s.db.v4Pools.rows, (s'.db.v4Pools.get? pool.poolId).isSome
  inflight : s'.inflight = s.inflight

theorem storeEvent_undisturbed {event : InitializeEvent} {db : Database} (ran : storeEvent config event s.db = .ok db) :
    Undisturbed s { s with db := db } := by
  have present : ∀ {new : V4Pool} {pool : V4Pool}, pool ∈ s.db.v4Pools.rows → ((s.db.v4Pools.put new).get? pool.poolId).isSome := by
    intro new pool member
    refine Option.isSome_iff_ne_none.mpr fun missing => ?_
    have none_before := (Table.get?_put_none.mp missing).2
    rw [Table.get?_of_mem member] at none_before
    cases none_before
  unfold storeEvent at ran
  split at ran
  · rename_i fresh
    unfold insertV4Pool at ran
    rw [if_pos fresh] at ran
    cases ran
    exact ⟨rfl, rfl, fun _ member => present member, rfl⟩
  · unfold setV4EventIdentity at ran
    split at ran
    · cases ran
    · split at ran
      · cases ran
        exact ⟨rfl, rfl, fun _ member => present member, rfl⟩
      · cases ran

/-- What one step promises: a publish stores exactly its pools and takes only unproven strangers,
a failed import moves nothing published and removes nothing, an event disturbs nothing. -/
def StepRight (config : SnapshotConfig) (s : Directory) : SnapshotStep → Prop
  | .importSnapshot a =>
    match (importBscV4Snapshot config a).run s with
    | (.ok result, s') => Publishes s s' result
    | (.error _, s') => Held s s'
  | .storeInitialize event => Undisturbed s (snapshotStep config s (.storeInitialize event))

theorem step_right {step : SnapshotStep} (sound : Sound s) (within : StaysWithin config s step) : StepRight config s step := by
  cases step with
  | importSnapshot a =>
    have spec := importBscV4Snapshot_spec sound within s rfl
    unfold StepRight
    dsimp only
    split
    · rename_i ran
      rw [ran] at spec
      exact spec
    · rename_i ran
      rw [ran] at spec
      exact spec
  | storeInitialize event =>
    unfold StepRight snapshotStep
    dsimp only
    split
    · rename_i ran
      exact storeEvent_undisturbed ran
    · exact ⟨rfl, rfl, fun pool member => by rw [Table.get?_of_mem member]; rfl, rfl⟩

theorem step_sound {step : SnapshotStep} (sound : Sound s) (within : StaysWithin config s step) :
    Sound (snapshotStep config s step) := by
  have right := step_right sound within
  cases step with
  | importSnapshot a =>
    unfold StepRight at right
    dsimp only at right
    unfold snapshotStep Durable.left
    dsimp only
    split at right
    · rename_i ran
      rw [ran]
      exact publishes_sound right
    · rename_i ran
      rw [ran]
      exact held_sound sound right
  | storeInitialize event =>
    have undisturbed : Undisturbed s (snapshotStep config s (.storeInitialize event)) := right
    have member : ∀ generation id, isMember (snapshotStep config s (.storeInitialize event)).db generation id = isMember s.db generation id := by
      intro generation id
      unfold isMember
      rw [undisturbed.memberships]
    refine ⟨fun generation published => ?_, fun r known => ?_, ?_⟩
    · rw [undisturbed.keys] at published ⊢
      unfold generationCount
      rw [undisturbed.memberships]
      exact sound.agrees generation published
    · rw [undisturbed.inflight] at known
      have walked := sound.inflight r known
      refine ⟨walked.ascending, walked.bounded, walked.counted, fun id inside => ?_⟩
      rw [show (∃ generation, (resumedProgress r).generation = some generation ∧ _) ↔ _ from exists_congr fun generation => by rw [member]]
      exact walked.members id inside
    · unfold snapshotStep
      dsimp only
      split
      · rename_i ran
        unfold storeEvent at ran
        split at ran
        · exact matched_insertV4Pool sound.matched ran
        · exact matched_setV4EventIdentity sound.matched ran
      · exact sound.matched

theorem fresh_sound : Sound Directory.fresh :=
  ⟨fun _ published => by (cases published), fun _ known => by (cases known), fun _ member => by (cases member)⟩

/-- In every run whose imports stay within the published generation, the published keys and rows agree
before and after each step, and each step keeps its promise. -/
theorem snapshot_intact (config : SnapshotConfig) (steps : List SnapshotStep) (step : SnapshotStep)
    (within : Trace.Along (snapshotStep config) (StaysWithin config) Directory.fresh (steps ++ [step])) :
    Agrees (Trace.run (snapshotStep config) Directory.fresh steps) ∧
      StepRight config (Trace.run (snapshotStep config) Directory.fresh steps) step ∧
      Agrees (Trace.run (snapshotStep config) Directory.fresh (steps ++ [step])) := by
  obtain ⟨before, last, _⟩ := Trace.along_append.mp within
  have each : ∀ s input, Sound s → StaysWithin config s input → Sound (snapshotStep config s input) := fun _ _ => step_sound
  have sound := Trace.run_keeps each fresh_sound before
  refine ⟨sound.agrees, step_right sound last, ?_⟩
  rw [Trace.run_append]
  exact (step_sound sound last).agrees

def sampleConfig : SnapshotConfig where
  poolManager := 99
  snapshotGeneration _ _ block hash := block * 1000 + hash

def samplePool (id : Digest) : ParsedPool :=
  { id := id, currency0 := 1, currency1 := 2, tickSpacing := 60, hooks := 0, ordered := by decide }

def sampleAttempt (block : Nat) (ids : List Digest) : Attempt where
  targetBlock := block
  subgraphId := "sub"
  maxLagBlocks := 10000
  indexedBlock := .ok block
  pinHash _ := .ok 5
  pages := List.replicate 2 (.ok ⟨block, 5, "dep", ids.length, ids.map samplePool⟩)
  publishHash _ := .ok 5

theorem snapshot_intact_sample :
    Agrees (Trace.run (snapshotStep sampleConfig) Directory.fresh [.importSnapshot (sampleAttempt 10 [3, 4])]) ∧
      StepRight sampleConfig (Trace.run (snapshotStep sampleConfig) Directory.fresh [.importSnapshot (sampleAttempt 10 [3, 4])])
        (.importSnapshot (sampleAttempt 11 [4, 7])) ∧
      Agrees (Trace.run (snapshotStep sampleConfig) Directory.fresh
        [.importSnapshot (sampleAttempt 10 [3, 4]), .importSnapshot (sampleAttempt 11 [4, 7])]) :=
  snapshot_intact sampleConfig [.importSnapshot (sampleAttempt 10 [3, 4])] (.importSnapshot (sampleAttempt 11 [4, 7])) (by decide)

/-- The published block imported again, with another pool on its page: the row joins the published
generation before the count check throws, and its pool count no longer agrees. -/
theorem reimport_breaks_published :
    ¬ Agrees (Trace.run (snapshotStep sampleConfig) Directory.fresh
      [.importSnapshot (sampleAttempt 10 [3]), .importSnapshot (sampleAttempt 10 [4])]) := by
  intro agrees
  have counted := (agrees 10005 (by decide)).1
  revert counted
  decide

end LpTerminal.Catalog
