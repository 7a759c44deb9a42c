import LpTerminal.Api.ServedPools
import LpTerminal.Catalog.V4Rpc
import LpTerminal.Catalog.V4Snapshot

/-!
The v4 directory as the API shares it with its writers: the windows of the Initialize tail and of a targeted history scan, the
pages and the publish of a Graph snapshot, and the `/api/pools` request with a client that follows its cursor.
-/

namespace LpTerminal.Api

open Catalog
export Catalog (Address)

structure V4Config where
  /-- The chain has no subgraph: its scan is the directory. -/
  rpcDirectory : Bool
  rpc : V4Rpc.Config
  graph : SnapshotConfig

structure FeaturedRow where
  poolId : Digest
  featuredSnapshot : Nat
  featuredRank : Nat

structure V4Directory where
  /-- The tables, `v4_cursor` and `v4_rpc_generation`. -/
  store : V4Rpc.Store
  snapshotBlock : Option Nat
  /-- `v4_tokens`. -/
  symbol : Address → Option String
  featuredBlock : Option Nat
  poolStats : Table FeaturedRow.poolId

def V4Directory.pools (s : V4Directory) : Table V4Pool.poolId := s.store.db.v4Pools

/-- `v4_cursor`, which is zero where it is missing. -/
def V4Directory.cursorBlock (s : V4Directory) : Nat := s.store.cursor.getD 0

abbrev Initialize := V4Rpc.InitializeArgs × Nat

inductive V4Write
  /-- A window of `scanV4Windows` up to `hi`. -/
  | tailWindow (durableCursor : Nat) (logs : List Initialize) (hi : Nat)
  /-- The last transaction of a tail. -/
  | tailDone (head : Nat)
  /-- A window of `scanV4ForToken`. -/
  | historyWindow (logs : List Initialize)
  | recordStockToken (address : Address) (issuer : Option Address)
  /-- `kvSet('v4_rpc_generation', directoryGeneration())`. -/
  | announce
  /-- A page of `importBscV4Snapshot` with the symbols it brings. -/
  | importPage (generation : Digest) (rows : List ParsedPool) (symbols : List (Address × String))
  /-- The publish of the import. -/
  | publish (generation : Digest) (block downloaded : Nat)

section Writes

variable (config : V4Config)

def storeLogs (durableCursor : Nat) (logs : List Initialize) (store : V4Rpc.Store) : Except V4Rpc.ScanError V4Rpc.Store :=
  logs.foldlM (fun store log => V4Rpc.admitInitialize config.rpc log.1 log.2 durableCursor store) store

/-- `upsertV4TokenMeta` of each currency. -/
def upsertSymbols (symbols : List (Address × String)) (symbol : Address → Option String) : Address → Option String :=
  symbols.foldl (fun symbol entry => Function.update symbol entry.1 (some entry.2)) symbol

def publishGeneration (generation : Digest) (downloaded : Nat) (db : Database) : Except String Database := do
  let db ← deleteStaleV4SnapshotCandidates generation db
  let db ← setGenerationKey generation { db with keys := { db.keys with v4SnapshotPoolCount := some downloaded } }
  return { db with keys := { db.keys with v4SnapshotComplete := true } }

def V4Write.apply (s : V4Directory) : V4Write → Option V4Directory
  | tailWindow durableCursor logs hi =>
    (storeLogs config durableCursor logs s.store).toOption.map fun store =>
      { s with store := { store with cursor := some (max durableCursor hi) } }
  | tailDone head =>
    let store := { s.store with cursor := some head }
    some { s with store := if config.rpcDirectory then V4Rpc.publish config.rpc store else store }
  | historyWindow logs =>
    (storeLogs config V4Rpc.noCursor logs s.store).toOption.map fun store => { s with store := store }
  | recordStockToken address issuer => some { s with store := V4Rpc.recordStockToken address issuer s.store }
  | announce => some { s with store := V4Rpc.publish config.rpc s.store }
  | importPage generation rows symbols =>
    (rows.foldlM (storeRow config.graph generation) (s.store.db, 0)).toOption.map fun stored =>
      { s with store := { s.store with db := stored.1 }, symbol := upsertSymbols symbols s.symbol }
  | publish generation block downloaded =>
    (publishGeneration generation downloaded s.store.db).toOption.map fun db =>
      { s with store := { s.store with db := db, cursor := some block }, snapshotBlock := some block }

def V4Directory.commit (s : V4Directory) (write : V4Write) : V4Directory := (write.apply config s).getD s

def v4CatalogGeneration (s : V4Directory) : Option Digest :=
  if config.rpcDirectory then s.store.generation else s.store.db.keys.v4SnapshotGeneration

end Writes

def selected (selects : V4Pool → Bool) (pools : Table V4Pool.poolId) : Table (fun id : Digest => id) where
  rows := (pools.rows.filter selects).map V4Pool.poolId
  sorted := List.pairwise_map.mpr (pools.sorted.filter _)

variable {config : V4Config} {selects : V4Pool → Bool} {pools pools' : Table V4Pool.poolId} {row : V4Pool} {id : Digest}
  {db db' : Database}

theorem mem_selected : id ∈ (selected selects pools).rows ↔ ∃ row, pools.get? id = some row ∧ selects row = true := by
  constructor
  · intro member
    obtain ⟨row, inside, rfl⟩ := List.mem_map.mp member
    obtain ⟨stored, chosen⟩ := List.mem_filter.mp inside
    exact ⟨row, Table.get?_of_mem stored, chosen⟩
  · rintro ⟨row, read, chosen⟩
    exact List.mem_map.mpr ⟨row, List.mem_filter.mpr ⟨Table.get?_mem read, chosen⟩, Table.get?_key read⟩

theorem selected_put (same : selects row = (pools.get? row.poolId).any selects) :
    selected selects (pools.put row) = selected selects pools := by
  refine Table.ext_mem fun id => ?_
  rw [mem_selected, mem_selected]
  by_cases here : id = row.poolId
  · rw [here, Table.get?_put_same pools row]
    cases read : pools.get? row.poolId with
    | none =>
      rw [read] at same
      simpa using same
    | some old =>
      rw [read] at same
      simpa using congrArg (· = true) same
  · rw [Table.get?_put_other here]

def Quiet (config : V4Config) (selects : V4Pool → Bool) (pools : Table V4Pool.poolId) (log : Initialize) : Prop :=
  match pools.get? log.1.id with
  | none => selects (V4Rpc.eventRow config.rpc log.1 log.2) = false
  | some old => selects (fillEvent log.1.fee log.2 old) = selects old

theorem admitInitialize_stores {log : Initialize} {durableCursor : Nat} {store store' : V4Rpc.Store}
    (ran : V4Rpc.admitInitialize config.rpc log.1 log.2 durableCursor store = .ok store') :
    ∃ db row, store' = { store with db := db } ∧ db.keys = store.db.keys ∧ db.v4Pools = store.db.v4Pools.put row ∧
      row.poolId = log.1.id ∧ row.createdBlock.isSome = true ∧ row.keyFeePpm.isSome = true ∧
      match store.db.v4Pools.get? log.1.id with
      | none => durableCursor < log.2 ∧ row = V4Rpc.eventRow config.rpc log.1 log.2
      | some old => row = fillEvent log.1.fee log.2 old := by
  unfold V4Rpc.admitInitialize at ran
  iterate 2 obtain ⟨-, ran⟩ := Fallible.then_ok.mp ran
  obtain ⟨ahead, ran⟩ := Fallible.then_ok.mp ran
  rw [Fallible.demand_ok] at ahead
  unfold V4Rpc.writeInitialize at ran
  obtain ⟨db, wrote, done⟩ := Fallible.bind_ok ran
  cases done
  cases read : store.db.v4Pools.get? log.1.id with
  | none =>
    have isNew : v4PoolIsNew (V4Rpc.eventRow config.rpc log.1 log.2) store.db = true := by
      unfold v4PoolIsNew
      rw [show (V4Rpc.eventRow config.rpc log.1 log.2).poolId = log.1.id from rfl, read]
      rfl
    rw [if_pos isNew] at wrote
    unfold insertV4Pool at wrote
    rw [if_pos isNew] at wrote
    cases wrote
    exact ⟨_, V4Rpc.eventRow config.rpc log.1 log.2, rfl, rfl, rfl, rfl, rfl, rfl, by
      rw [read] at ahead
      exact ⟨by simpa using ahead, rfl⟩⟩
  | some old =>
    have isOld : ¬ v4PoolIsNew (V4Rpc.eventRow config.rpc log.1 log.2) store.db = true := by
      unfold v4PoolIsNew
      rw [show (V4Rpc.eventRow config.rpc log.1 log.2).poolId = log.1.id from rfl, read]
      simp
    rw [if_neg isOld] at wrote
    unfold setV4EventIdentity at wrote
    rw [read] at wrote
    dsimp only at wrote
    split at wrote
    · cases wrote
      have key : old.poolId = log.1.id := Table.get?_key read
      exact ⟨_, fillEvent log.1.fee log.2 old, rfl, rfl, rfl, key, rfl, rfl, rfl⟩
    · cases wrote

theorem fillEvent_complete {fee block : Nat} (fee_ : row.keyFeePpm.isSome = true) (dated : row.createdBlock.isSome = true) :
    fillEvent fee block row = row := by
  obtain ⟨fee', known⟩ := Option.isSome_iff_exists.mp fee_
  obtain ⟨block', created⟩ := Option.isSome_iff_exists.mp dated
  unfold fillEvent
  rw [known, created, Option.getD_some, Option.getD_some, ← known, ← created]

theorem quiet_put {log : Initialize} (fee : row.keyFeePpm.isSome = true) (dated : row.createdBlock.isSome = true)
    (quiet : Quiet config selects pools log) : Quiet config selects (pools.put row) log := by
  unfold Quiet at quiet ⊢
  by_cases here : log.1.id = row.poolId
  · rw [here, Table.get?_put_same pools row]
    dsimp only
    rw [fillEvent_complete fee dated]
  · rw [Table.get?_put_other here]
    exact quiet

theorem storeLogs_keeps {durableCursor : Nat} {logs : List Initialize} {store store' : V4Rpc.Store}
    (ran : storeLogs config durableCursor logs store = .ok store') :
    (∃ db, store' = { store with db := db } ∧ db.keys = store.db.keys) ∧
      ((∀ log ∈ logs, Quiet config selects store.db.v4Pools log) →
        selected selects store'.db.v4Pools = selected selects store.db.v4Pools) := by
  unfold storeLogs at ran
  induction logs generalizing store with
  | nil =>
    cases ran
    exact ⟨⟨_, rfl, rfl⟩, fun _ => rfl⟩
  | cons log later ih =>
    rw [List.foldlM_cons] at ran
    obtain ⟨middle, one, ran⟩ := Fallible.bind_ok ran
    obtain ⟨db, row, rfl, keys, put, key, dated, fee, stored⟩ := admitInitialize_stores one
    obtain ⟨⟨db', done, keys'⟩, kept⟩ := ih ran
    refine ⟨⟨db', done, keys'.trans keys⟩, fun quiet => ?_⟩
    obtain ⟨own, others⟩ := List.forall_mem_cons.mp quiet
    have place : selects row = (store.db.v4Pools.get? row.poolId).any selects := by
      unfold Quiet at own
      rw [key]
      cases read : store.db.v4Pools.get? log.1.id with
      | none =>
        rw [read] at own stored
        rw [stored.2, own]
        rfl
      | some old =>
        rw [read] at own stored
        dsimp only at own stored
        rw [stored, own]
        rfl
    have later_ : selected selects store'.db.v4Pools = selected selects db.v4Pools :=
      kept fun other inside => by
        rw [put]
        exact quiet_put fee dated (others other inside)
    rw [later_, put, selected_put place]

def Imports (config : V4Config) (generation : Digest) (selects : V4Pool → Bool) (pools : Table V4Pool.poolId) (row : ParsedPool) : Prop :=
  pools.get? row.id = none → selects (graphIdentity config.graph row generation) = false

variable {generation : Digest}

theorem storeRow_pools {row : ParsedPool} {stored stored' : Database × Nat}
    (ran : storeRow config.graph generation stored row = .ok stored') :
    (stored.1.v4Pools.get? row.id = none ∧ stored'.1.v4Pools = stored.1.v4Pools.put (graphIdentity config.graph row generation)) ∨
      ((stored.1.v4Pools.get? row.id).isSome = true ∧ stored'.1.v4Pools = stored.1.v4Pools) := by
  obtain ⟨⟨final, isNew⟩, one, rest⟩ := Fallible.bind_ok ran
  cases rest
  obtain ⟨_, _, one⟩ := Fallible.bind_ok one
  obtain ⟨written, store, done⟩ := Fallible.bind_ok one
  cases done
  have membership : ∀ {db db' : Database} {row : Membership}, insertMembership row db = .ok db' → db'.v4Pools = db.v4Pools := fun ran => by
    unfold insertMembership at ran
    split at ran
    · split at ran <;> cases ran <;> rfl
    · cases ran
  unfold writeGraphIdentity at store
  split at store
  · rename_i fresh
    unfold insertV4Pool at store
    rw [if_pos fresh] at store
    exact Or.inl ⟨Option.isNone_iff_eq_none.mp fresh, membership store⟩
  · unfold setV4SnapshotGeneration at store
    split at store
    · cases store
    · rename_i existing read
      exact Or.inr ⟨by rw [read]; rfl, membership store⟩

theorem storeRows_keeps {rows : List ParsedPool} {stored stored' : Database × Nat}
    (ran : rows.foldlM (storeRow config.graph generation) stored = .ok stored')
    (imports : ∀ row ∈ rows, Imports config generation selects stored.1.v4Pools row) :
    selected selects stored'.1.v4Pools = selected selects stored.1.v4Pools := by
  induction rows generalizing stored with
  | nil =>
    cases ran
    rfl
  | cons row later ih =>
    rw [List.foldlM_cons] at ran
    obtain ⟨middle, one, ran⟩ := Fallible.bind_ok ran
    obtain ⟨own, others⟩ := List.forall_mem_cons.mp imports
    rcases storeRow_pools one with ⟨missing, put⟩ | ⟨-, same⟩
    · have unseen : selects (graphIdentity config.graph row generation) =
          (stored.1.v4Pools.get? (graphIdentity config.graph row generation).poolId).any selects := by
        rw [own missing, show (graphIdentity config.graph row generation).poolId = row.id from rfl, missing]
        rfl
      rw [ih ran fun other inside => ?_, put, selected_put unseen]
      intro absent
      rw [put, Table.get?_put_none] at absent
      exact others other inside absent.2
    · rw [ih ran fun other inside => by rw [same]; exact others other inside, same]

def Survives (db : Database) (generation : Digest) (row : V4Pool) : Prop := isMember db generation row.poolId = true ∨ row.eventProven = true

theorem publishGeneration_collects {downloaded : Nat} (ran : publishGeneration generation downloaded db = .ok db') :
    db'.keys.v4SnapshotGeneration = some generation ∧
      ∀ row, row ∈ db'.v4Pools.rows ↔ row ∈ (labelMembers generation db).rows ∧ Survives db generation row := by
  unfold publishGeneration at ran
  obtain ⟨armed, arms, ran⟩ := Fallible.bind_ok ran
  obtain ⟨switched, switches, done⟩ := Fallible.bind_ok ran
  cases done
  unfold deleteStaleV4SnapshotCandidates at arms
  split at arms
  · cases arms
  · cases arms
    unfold setGenerationKey at switches
    rw [if_pos rfl] at switches
    split at switches
    · have collected := gc_collected switches
      refine ⟨?_, fun row => ?_⟩
      · dsimp only
        rw [collected.keys]
      · exact collected.pools row
    · cases switches

theorem publishGeneration_keeps {downloaded : Nat} (ran : publishGeneration generation downloaded db = .ok db')
    (blind : ∀ row label, selects { row with snapshotGeneration := label } = selects row)
    (survive : ∀ row ∈ db.v4Pools.rows, selects row = true → Survives db generation row) :
    selected selects db'.v4Pools = selected selects db.v4Pools := by
  have collects := (publishGeneration_collects ran).2
  have labelled : ∀ row, selects (if isMember db generation row.poolId then { row with snapshotGeneration := some generation } else row) =
      selects row := fun row => by
    split
    · exact blind row _
    · rfl
  refine Table.ext_mem fun id => ?_
  rw [mem_selected, mem_selected]
  constructor
  · rintro ⟨row, read, chosen⟩
    have stays := (collects row).mp (Table.get?_mem read)
    have found := Table.get?_of_mem stays.1
    rw [labelMembers_get?, Table.get?_key read] at found
    obtain ⟨old, stored, rfl⟩ := Option.map_eq_some_iff.mp found
    exact ⟨old, stored, (labelled old).symm.trans chosen⟩
  · rintro ⟨old, stored, chosen⟩
    have key := Table.get?_key stored
    have found : (labelMembers generation db).get? id = some
        (if isMember db generation old.poolId then { old with snapshotGeneration := some generation } else old) := by
      rw [labelMembers_get?, stored]
      rfl
    refine ⟨_, ?_, (labelled old).trans chosen⟩
    have stays : Survives db generation
        (if isMember db generation old.poolId then { old with snapshotGeneration := some generation } else old) := by
      have own := survive old (Table.get?_mem stored) chosen
      unfold Survives at own ⊢
      split <;> exact own
    have member := (collects _).mpr ⟨Table.get?_mem found, stays⟩
    have read := Table.get?_of_mem member
    rw [Table.get?_key found] at read
    exact read

/-- A search term after `trim` and `toLowerCase`. -/
inductive V4Search
  /-- `*` asks for no clause. -/
  | star
  | poolId (id : Digest)
  | address (hex : Address)
  | pair (first second : String)
  | emptySide
  | symbol (part : String)

structure V4Params where
  token0 : Option Address
  token1 : Option Address
  q : Option V4Search
  limit : Option Nat
  after : Option Digest
  catalogBlock : Option Nat
  catalogGeneration : Option Digest

structure V4Filter where
  pair : Option (Address × Address)
  search : Option V4Search

def contains (symbols : Address → Option String) (part : String) (token : Address) : Bool :=
  (symbols token).any fun own => (foldCase own).tails.any fun rest => (foldCase part).isPrefixOf rest

def v4SearchClause (symbols : Address → Option String) (pool : V4Pool) : V4Search → Bool
  | .star => true
  | .poolId id => pool.poolId = id
  | .address hex => pool.currency0 = hex || pool.currency1 = hex
  | .pair first second => pairSearchClause symbols first second pool.currency0 pool.currency1
  | .emptySide => false
  | .symbol part => contains symbols part pool.currency0 || contains symbols part pool.currency1

def v4PoolsWhere (filter : V4Filter) (symbols : Address → Option String) (pool : V4Pool) : Bool :=
  (filter.pair.all fun pair => pool.currency0 = pair.1 && pool.currency1 = pair.2) && filter.search.all (v4SearchClause symbols pool)

def inFence (fence : Nat) (pool : V4Pool) : Bool := pool.createdBlock.all fun block => block ≤ fence

/-- `scopedWhere`. -/
def inScope (filter : V4Filter) (fence : Nat) (symbols : Address → Option String) (pool : V4Pool) : Bool :=
  v4PoolsWhere filter symbols pool && inFence fence pool

def scopedRows (filter : V4Filter) (fence : Nat) (s : V4Directory) : List V4Pool := s.pools.rows.filter (inScope filter fence s.symbol)

def FIRST_V4_POOL_CURSOR : Digest := 0

structure V4Request where
  filter : V4Filter
  catalogBlock : Nat
  limit : Nat

/-- The parameters against what `v4Capability` told. -/
def v4RequestOf (params : V4Params) (cursorBlock : Nat) (snapshotBlock : Option Nat) (generation : Option Digest) :
    Except Refusal V4Request := do
  let pair ← exactPair params.token0 params.token1 params.q.isSome
  Fallible.demand (params.catalogGeneration = none ∨ params.catalogGeneration = generation)
    (.conflict "univ4 catalog generation changed; restart pagination")
  Fallible.demand (params.after = none ∨ (params.catalogBlock ≠ none ∧ params.catalogGeneration ≠ none))
    (.input "univ4 continuation requires catalog_block and catalog_generation")
  Fallible.demand (∀ requested ∈ params.catalogBlock, (0 < requested ∧ requested ≤ maxSafeInteger) ∧
      (∀ block ∈ snapshotBlock, block ≤ requested) ∧ (0 < cursorBlock → requested ≤ cursorBlock))
    (.input "invalid univ4 catalog_block")
  Fallible.demand (∀ asked ∈ params.limit, 0 < asked ∧ asked ≤ MAX_PAGE_LIMIT) (.input "invalid univ4 limit")
  return { filter := ⟨pair, params.q⟩
           catalogBlock := params.catalogBlock.getD (if cursorBlock ≠ 0 then cursorBlock else snapshotBlock.getD 0)
           limit := params.limit.getD 100 }

structure V4Page where
  count : Nat
  countCapped : Bool
  nextCursor : Option Digest
  catalogBlock : Nat
  catalogGeneration : Option Digest
  pools : List V4Pool

def countV4 (request : V4Request) (s : V4Directory) : MatchCount :=
  let rows := scopedRows request.filter request.catalogBlock s
  if request.filter.search.isSome then boundedCount rows SEARCH_COUNT_CAP else exactly rows.length

def featuredIn (s : V4Directory) (block : Nat) (pool : V4Pool) : Bool :=
  (s.poolStats.get? pool.poolId).any fun row => row.featuredSnapshot = block

def featuredRank (s : V4Directory) (pool : V4Pool) : Nat := ((s.poolStats.get? pool.poolId).map FeaturedRow.featuredRank).getD 0

def fetchFeatured (request : V4Request) (featuredBlock : Option Nat) (target : Nat) (s : V4Directory) : List V4Pool :=
  match featuredBlock with
  | none => []
  | some block =>
    top [ascending (featuredRank s), ascending V4Pool.poolId] target
      ((scopedRows request.filter request.catalogBlock s).filter (featuredIn s block))

def fetchFiller (request : V4Request) (featuredBlock : Option Nat) (remaining : Nat) (s : V4Directory) : List V4Pool :=
  ((scopedRows request.filter request.catalogBlock s).filter fun pool => featuredBlock.all fun block => !featuredIn s block pool).take
    remaining

def fetchAfter (request : V4Request) (cursor : Digest) (s : V4Directory) : List V4Pool :=
  ((scopedRows request.filter request.catalogBlock s).filter fun pool => cursor < pool.poolId).take (request.limit + 1)

def v4CursorPage (request : V4Request) (generation : Option Digest) (counted : MatchCount) (fetched : List V4Pool) : V4Page where
  count := counted.n
  countCapped := counted.capped
  nextCursor := if request.limit < fetched.length then (fetched.take request.limit).getLast?.map V4Pool.poolId else none
  catalogBlock := request.catalogBlock
  catalogGeneration := generation
  pools := fetched.take request.limit

def v4LandingPage (request : V4Request) (generation : Option Digest) (counted : MatchCount) (fetched : List V4Pool) : V4Page where
  count := counted.n
  countCapped := counted.capped
  nextCursor := if fetched.length < counted.n then some FIRST_V4_POOL_CURSOR else none
  catalogBlock := request.catalogBlock
  catalogGeneration := generation
  pools := fetched

section Requests

variable (config : V4Config)

def answerV4 (params : V4Params) (request : V4Request) (generation : Option Digest) (featuredBlock : Option Nat) :
    Reads V4Directory (Except Refusal V4Page) :=
  .read fun atCount =>
    let counted := countV4 request atCount
    match params.after with
    | some cursor => .read fun atRows => .done (.ok (v4CursorPage request generation counted (fetchAfter request cursor atRows)))
    | none => .read fun atRows => .read fun atFiller =>
      let target := min request.limit counted.n
      let featured := fetchFeatured request featuredBlock target atRows
      let filler := fetchFiller request featuredBlock (target - featured.length) atFiller
      .done (.ok (v4LandingPage request generation counted (featured ++ filler)))

/-- `v4Capability` reads its keys one by one. -/
def getV4Pools (params : V4Params) : Reads V4Directory (Except Refusal V4Page) :=
  .read fun atCursor => .read fun atSnapshot => .read fun atGeneration => .read fun atFeatured =>
    match v4RequestOf params atCursor.cursorBlock (atSnapshot.snapshotBlock.filter fun block => block ≠ 0)
      (v4CatalogGeneration config atGeneration) with
    | .error refusal => .done (.error refusal)
    | .ok request => answerV4 params request (v4CatalogGeneration config atGeneration) atFeatured.featuredBlock

structure V4Browse where
  token0 : Option Address
  token1 : Option Address
  q : Option V4Search
  limit : Option Nat

def V4Browse.landing (browse : V4Browse) : V4Params :=
  { browse with after := none, catalogBlock := none, catalogGeneration := none }

def V4Browse.continuation (browse : V4Browse) (landing : V4Page) (cursor : Digest) : V4Params :=
  { browse with after := some cursor, catalogBlock := some landing.catalogBlock, catalogGeneration := landing.catalogGeneration }

def V4Browse.filter (browse : V4Browse) : V4Filter where
  pair := match browse.token0, browse.token1 with
    | some token0, some token1 => some (token0, token1)
    | _, _ => none
  search := browse.q

def V4Browse.pageLimit (browse : V4Browse) : Nat := browse.limit.getD 100

abbrev Schedule := List (List V4Write)

inductive V4Traversal
  | refused (refusal : Refusal)
  | interrupted (landing : V4Page) (refusal : Refusal)
  | unfinished (landing : V4Page)
  | complete (landing : V4Page) (pages : List V4Page)

/-- A client that follows `nextCursor`, with one schedule for each request it may send. -/
def followV4 (browse : V4Browse) (landing : V4Page) : List Schedule → List V4Page → Option Digest → V4Directory → V4Traversal
  | _, pages, none, _ => .complete landing pages
  | [], _, some _, _ => .unfinished landing
  | schedule :: later, pages, some cursor, s =>
    match (getV4Pools config (browse.continuation landing cursor)).run (V4Directory.commit config) schedule s with
    | (.error refusal, _) => .interrupted landing refusal
    | (.ok page, s') => followV4 browse landing later (pages ++ [page]) page.nextCursor s'

def landV4 (browse : V4Browse) (schedule : Schedule) (start : V4Directory) : Except Refusal V4Page × V4Directory :=
  (getV4Pools config browse.landing).run (V4Directory.commit config) ([] :: schedule) start

def traverseV4 (browse : V4Browse) (schedule : Schedule) (later : List Schedule) (start : V4Directory) : V4Traversal :=
  match landV4 config browse schedule start with
  | (.error refusal, _) => .refused refusal
  | (.ok landing, s) => followV4 config browse landing later [] landing.nextCursor s

end Requests

end LpTerminal.Api
