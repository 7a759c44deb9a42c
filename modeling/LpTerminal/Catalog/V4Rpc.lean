import LpTerminal.Catalog.Triggers
import LpTerminal.Lib.Fallible
import LpTerminal.Lib.Trace

/-!
The v4 directory of a chain without a subgraph: the launchpad sync and the tail that follow the finalized
head, and the sweeps that prove an issued share and scan its history. The tails run one after the other;
the sweeps run beside them, so a run is any interleaving of their requests.
-/

namespace LpTerminal.Catalog.V4Rpc

structure InitializeArgs where
  id : Digest
  currency0 : Address
  currency1 : Address
  fee : Nat
  tickSpacing : Int
  hooks : Address
deriving DecidableEq

structure InitializeLog where
  args : Option InitializeArgs
  blockNumber : Nat
deriving DecidableEq

/-- `TokenCreated`, with the address in its first word where that word is one. -/
structure LaunchLog where
  token : Option Address
  blockNumber : Nat

/-- The finalized logs of the two contracts. A pool id is initialized once. -/
structure Chain where
  launches : List LaunchLog
  initializes : List InitializeLog
  distinct : ((initializes.filterMap InitializeLog.args).map InitializeArgs.id).Nodup

/-- The lines that `directoryGeneration` hashes. -/
structure DirectoryIdentity where
  poolManager : Address
  tokenFactory : Address
  poolGenesisBlock : Nat
  scope : List Address
  issued : Nat

structure Config where
  poolManager : Address
  tokenFactory : Address
  core : List Address
  tokenGenesisBlock : Nat
  poolGenesisBlock : Nat
  tokenGenesis_pos : 0 < tokenGenesisBlock
  poolGenesis_pos : 0 < poolGenesisBlock
  /-- `keccak256` of the encoded PoolKey. -/
  eventPoolId : Address → Address → Nat → Int → Address → Digest
  keccak256 : DirectoryIdentity → Digest

structure LaunchpadToken where
  address : Address
  createdBlock : Nat

structure StockToken where
  address : Address
  issuer : Option Address

structure Store where
  db : Database
  cursor : Option Nat
  launchpadCursor : Option Nat
  launchpadTokens : Table LaunchpadToken.address
  stockTokens : Table StockToken.address
  generation : Option Digest

def Store.fresh : Store := ⟨Database.fresh, none, none, Table.empty, Table.empty, none⟩

inductive ScanError
  | behindCursor (poolId : Digest) (createdBlock durableCursor : Nat) (currency0 currency1 : Address)
  | other (message : String)

section Scope

variable (config : Config)

def isLaunchpadToken (store : Store) (address : Address) : Bool := (store.launchpadTokens.get? address).isSome

def stockIssuerOf (store : Store) (address : Address) : Option Address := (store.stockTokens.get? address).bind StockToken.issuer

def isStockToken (store : Store) (address : Address) : Bool := (stockIssuerOf store address).isSome

def stockTokenMeasured (store : Store) (address : Address) : Bool := (store.stockTokens.get? address).isSome

/-- `stockTokenCounts().proven`. -/
def provenCount (store : Store) : Nat := store.stockTokens.rows.countP fun row => row.issuer.isSome

def provenOrigin (store : Store) (address : Address) : Bool := isLaunchpadToken store address || isStockToken store address

def inV4DirectoryScope (store : Store) (currency0 currency1 : Address) : Bool :=
  provenOrigin store currency0 || provenOrigin store currency1 || currency0 ∈ config.core && currency1 ∈ config.core

def generationOf (issued : Nat) : Digest :=
  config.keccak256 ⟨config.poolManager, config.tokenFactory, config.poolGenesisBlock, config.core, issued⟩

def directoryGeneration (store : Store) : Digest := generationOf config (provenCount store)

end Scope

section Logs

variable (config : Config)

def dynamicFeeFlag : Nat := 0x800000

def validPoolKey (args : InitializeArgs) : Prop :=
  args.currency0 < args.currency1 ∧ 0 < args.tickSpacing ∧ args.tickSpacing ≤ 32767 ∧
    (args.fee ≤ 1000000 ∨ args.fee = dynamicFeeFlag)

instance {args : InitializeArgs} : Decidable (validPoolKey args) :=
  inferInstanceAs (Decidable (_ ∧ _ ∧ _ ∧ (_ ∨ _)))

def eventRow (args : InitializeArgs) (createdBlock : Nat) : V4Pool where
  poolId := args.id
  poolManager := config.poolManager
  currency0 := args.currency0
  currency1 := args.currency1
  keyFeePpm := some args.fee
  tickSpacing := args.tickSpacing.toNat
  hooks := args.hooks
  createdBlock := some createdBlock
  snapshotGeneration := none

def demand (condition : Prop) [Decidable condition] (message : String) : Except ScanError Unit :=
  Fallible.demand condition (.other message)

def refused {α : Type} : Except String α → Except ScanError α
  | .ok value => .ok value
  | .error message => .error (.other message)

def writeInitialize (args : InitializeArgs) (createdBlock : Nat) (store : Store) : Except ScanError Store := do
  let db ← refused <|
    if v4PoolIsNew (eventRow config args createdBlock) store.db then insertV4Pool (eventRow config args createdBlock) store.db
    else setV4EventIdentity args.id args.fee createdBlock store.db
  return { store with db := db }

/-- The part of `storeInitialize` behind the scope gate. -/
def admitInitialize (args : InitializeArgs) (createdBlock durableCursor : Nat) (store : Store) : Except ScanError Store := do
  let existing := store.db.v4Pools.get? args.id
  demand (∀ row ∈ existing, row.poolManager = config.poolManager ∧ row.currency0 = args.currency0 ∧
      row.currency1 = args.currency1 ∧ row.tickSpacing = args.tickSpacing.toNat ∧ row.hooks = args.hooks)
    s!"existing v4 pool {args.id} conflicts with Initialize event"
  demand (createdBlock ≤ maxSafeInteger) s!"PoolManager Initialize {args.id} has invalid block number"
  Fallible.demand (¬ (existing = none ∧ createdBlock ≤ durableCursor))
    (.behindCursor args.id createdBlock durableCursor args.currency0 args.currency1)
  writeInitialize config args createdBlock store

def storeInitialize (durableCursor : Nat) (store : Store) (logRow : InitializeLog) : Except ScanError Store :=
  match logRow.args with
  | none => .error (.other "PoolManager returned a malformed Initialize log")
  | some args => do
    demand (validPoolKey args) s!"PoolManager Initialize {args.id} has invalid PoolKey fields"
    demand (config.eventPoolId args.currency0 args.currency1 args.fee args.tickSpacing args.hooks = args.id)
      s!"PoolManager Initialize {args.id} failed PoolId round-trip verification"
    if inV4DirectoryScope config store args.currency0 args.currency1 then
      admitInitialize config args logRow.blockNumber durableCursor store
    else return store

def storeWindow (durableCursor : Nat) (rows : List InitializeLog) (store : Store) : Except ScanError Store :=
  rows.foldlM (storeInitialize config durableCursor) store

def insertLaunchpadToken (address : Address) (createdBlock : Nat) (store : Store) : Store :=
  if isLaunchpadToken store address then store
  else { store with launchpadTokens := store.launchpadTokens.put ⟨address, createdBlock⟩ }

def storeLaunch (store : Store) (row : LaunchLog) : Except ScanError Store :=
  match row.token with
  | none => .error (.other "UERC20Factory TokenCreated has a malformed token address")
  | some token => do
    demand (row.blockNumber ≤ maxSafeInteger) "UERC20Factory TokenCreated has an invalid block number"
    return insertLaunchpadToken token row.blockNumber store

def recordStockToken (address : Address) (issuer : Option Address) (store : Store) : Store :=
  { store with stockTokens := store.stockTokens.put ⟨address, issuer⟩ }

end Logs

inductive Side
  | currency0
  | currency1
deriving DecidableEq

/-- `scanV4ForToken` between two requests: the side it asks for and the next block. -/
structure TokenScan where
  token : Address
  fromBlock : Nat
  toBlock : Nat
  side : Side
  lo : Nat
deriving DecidableEq

namespace TokenScan

def settle (scan : TokenScan) : TokenScan :=
  if scan.side = .currency0 ∧ scan.toBlock < scan.lo then { scan with side := .currency1, lo := scan.fromBlock } else scan

def start (token : Address) (fromBlock toBlock : Nat) : TokenScan := settle ⟨token, fromBlock, toBlock, .currency0, fromBlock⟩

def done (scan : TokenScan) : Prop := scan.side = .currency1 ∧ scan.toBlock < scan.lo

instance {scan : TokenScan} : Decidable scan.done := inferInstanceAs (Decidable (_ ∧ _))

def asks (scan : TokenScan) (log : InitializeLog) : Bool :=
  log.args.any fun args => match scan.side with
    | .currency0 => args.currency0 = scan.token
    | .currency1 => args.currency1 = scan.token

end TokenScan

inductive Tail
  | idle
  | syncing (head lo : Nat)
  | scanning (head cursor lo durableCursor : Nat) (retried : Bool)
  | repairing (head cursor : Nat) (scans : List TokenScan)
deriving DecidableEq

/-- A sweep: the candidates without an answer, the proven ones whose scan has not begun, and the scan of one. -/
structure Sweep where
  asked : List Address
  admitted : List Address
  scan : Option TokenScan

structure World where
  store : Store
  tail : Tail
  sweeps : List Sweep

def World.fresh : World := ⟨Store.fresh, .idle, []⟩

inductive Step
  | tailStart (head : Nat)
  | launchpadWindow (hi : Nat)
  | tailCursor
  | tailWindow (hi : Nat)
  | repairWindow (hi : Nat)
  | repairDone
  | tailDone
  | tailFail
  | sweepStart (deep : List Address) (limit : Nat)
  | answer (sweep : Nat) (address : Address) (issuer : Option Address)
  | unread (sweep : Nat) (address : Address)
  | scanStart (sweep : Nat) (head : Nat)
  | scanWindow (sweep : Nat) (hi : Nat)
  | scanDone (sweep : Nat)
  | scanFail (sweep : Nat)
  | crash

section Processes

variable (config : Config) (chain : Chain)

/-- The rows of an `eth_getLogs` answer. -/
def initializeLogs (lo hi : Nat) : List InitializeLog :=
  chain.initializes.filter fun log => lo ≤ log.blockNumber ∧ log.blockNumber ≤ hi

def launchLogs (lo hi : Nat) : List LaunchLog :=
  chain.launches.filter fun log => lo ≤ log.blockNumber ∧ log.blockNumber ≤ hi

def noCursor : Nat := 0

/-- One window of `scanV4ForToken`. -/
def TokenScan.window (scan : TokenScan) (hi : Nat) (store : Store) : Except ScanError (Store × TokenScan) := do
  let store ← storeWindow config noCursor ((initializeLogs chain scan.lo hi).filter scan.asks) store
  return (store, { scan with lo := hi + 1 }.settle)

def storedCursor (cursor : Option Nat) (genesis : Nat) : Nat := (cursor.filter (0 < ·)).getD (genesis - 1)

def syncLaunchpadTokens (head : Nat) (w : World) : World :=
  let cursor := storedCursor w.store.launchpadCursor config.tokenGenesisBlock
  if w.tail = .idle ∧ 0 < head ∧ cursor ≤ head then { w with tail := .syncing head (cursor + 1) } else w

def launchpadWindow (hi : Nat) (w : World) : World :=
  match w.tail with
  | .syncing head lo =>
    if lo ≤ hi ∧ hi ≤ head then
      match (launchLogs chain lo hi).foldlM storeLaunch w.store with
      | .ok store => { w with store := { store with launchpadCursor := some hi }, tail := .syncing head (hi + 1) }
      | .error _ => { w with tail := .idle }
    else w
  | _ => w

def tailFrom (cursor : Nat) : Nat := max config.poolGenesisBlock (cursor - 120)

def readCursor (w : World) : World :=
  match w.tail with
  | .syncing head lo =>
    let cursor := storedCursor w.store.cursor config.poolGenesisBlock
    if head < lo then
      if cursor ≤ head then { w with tail := .scanning head cursor (tailFrom config cursor) cursor false }
      else { w with tail := .idle }
    else w
  | _ => w

/-- The catch of `tailV4Rpc`: only a proven currency of the row behind the cursor is scanned again, and once. -/
def recover (head cursor : Nat) (retried : Bool) (store : Store) : ScanError → Tail
  | .behindCursor _ _ _ currency0 currency1 =>
    let origins := ([currency0, currency1].filter (provenOrigin store)).dedup
    if retried ∨ origins = [] then .idle
    else .repairing head cursor
      ((origins.map fun origin => TokenScan.start origin config.poolGenesisBlock cursor).filter fun scan => ¬ scan.done)
  | .other _ => .idle

/-- One window of `scanV4Windows`. -/
def tailWindow (hi : Nat) (w : World) : World :=
  match w.tail with
  | .scanning head cursor lo durableCursor retried =>
    if lo ≤ hi ∧ hi ≤ head then
      match storeWindow config durableCursor (initializeLogs chain lo hi) w.store with
      | .ok store =>
        { w with
          store := { store with cursor := some (max durableCursor hi) }
          tail := .scanning head cursor (hi + 1) (max durableCursor hi) retried }
      | .error e => { w with tail := recover config head cursor retried w.store e }
    else w
  | _ => w

def repairWindow (hi : Nat) (w : World) : World :=
  match w.tail with
  | .repairing head cursor (scan :: rest) =>
    if scan.lo ≤ hi ∧ hi ≤ scan.toBlock then
      match scan.window config chain hi w.store with
      | .ok (store, next) => { w with store := store, tail := .repairing head cursor (if next.done then rest else next :: rest) }
      | .error _ => { w with tail := .idle }
    else w
  | _ => w

def publish (store : Store) : Store := { store with generation := some (directoryGeneration config store) }

def repairDone (w : World) : World :=
  match w.tail with
  | .repairing head cursor [] =>
    { w with store := publish config w.store, tail := .scanning head cursor (tailFrom config cursor) cursor true }
  | _ => w

def tailDone (w : World) : World :=
  match w.tail with
  | .scanning head _ lo _ _ =>
    if head < lo then { w with store := publish config { w.store with cursor := some head }, tail := .idle } else w
  | _ => w

/-- `unmeasuredStockCandidates` over the tokens deep enough to ask about, deepest first. -/
def unmeasuredStockCandidates (deep : List Address) (limit : Nat) (store : Store) : List Address :=
  (deep.dedup.filter fun address => !stockTokenMeasured store address).take limit

def sweepStart (deep : List Address) (limit : Nat) (w : World) : World :=
  { w with sweeps := w.sweeps ++ [⟨unmeasuredStockCandidates deep limit w.store, [], none⟩] }

def inSweep (i : Nat) (act : Store → Sweep → Store × Sweep) (w : World) : World :=
  match w.sweeps[i]? with
  | none => w
  | some sweep => { w with store := (act w.store sweep).1, sweeps := w.sweeps.set i (act w.store sweep).2 }

def answer (address : Address) (issuer : Option Address) (store : Store) (sweep : Sweep) : Store × Sweep :=
  if address ∈ sweep.asked then
    (recordStockToken address issuer store,
      { sweep with asked := sweep.asked.erase address,
                   admitted := if issuer.isSome then sweep.admitted ++ [address] else sweep.admitted })
  else (store, sweep)

def unread (address : Address) (store : Store) (sweep : Sweep) : Store × Sweep :=
  (store, { sweep with asked := sweep.asked.erase address })

/-- `admitV4Token` up to its first request; without a cursor it reads the finalized head. -/
def admitV4Token (head : Nat) (store : Store) (sweep : Sweep) : Store × Sweep :=
  match sweep.asked, sweep.scan, sweep.admitted with
  | [], none, token :: rest =>
    (store, { sweep with admitted := rest,
                         scan := some (TokenScan.start token config.poolGenesisBlock ((store.cursor.filter (0 < ·)).getD head)) })
  | _, _, _ => (store, sweep)

def scanWindow (hi : Nat) (store : Store) (sweep : Sweep) : Store × Sweep :=
  match sweep.scan with
  | none => (store, sweep)
  | some scan =>
    if scan.lo ≤ hi ∧ hi ≤ scan.toBlock then
      match scan.window config chain hi store with
      | .ok (store', next) => (store', { sweep with scan := some next })
      | .error _ => (store, { sweep with scan := none })
    else (store, sweep)

def scanDone (store : Store) (sweep : Sweep) : Store × Sweep :=
  match sweep.scan with
  | none => (store, sweep)
  | some scan => if scan.done then (publish config store, { sweep with scan := none }) else (store, sweep)

/-- The catch of `sweepStockOrigins`: a failed backfill is logged, and the next token is scanned. -/
def scanFail (store : Store) (sweep : Sweep) : Store × Sweep := (store, { sweep with scan := none })

def step (w : World) : Step → World
  | .tailStart head => syncLaunchpadTokens config head w
  | .launchpadWindow hi => launchpadWindow chain hi w
  | .tailCursor => readCursor config w
  | .tailWindow hi => tailWindow config chain hi w
  | .repairWindow hi => repairWindow config chain hi w
  | .repairDone => repairDone config w
  | .tailDone => tailDone config w
  | .tailFail => { w with tail := .idle }
  | .sweepStart deep limit => sweepStart deep limit w
  | .answer i address issuer => inSweep i (answer address issuer) w
  | .unread i address => inSweep i (unread address) w
  | .scanStart i head => inSweep i (admitV4Token config head) w
  | .scanWindow i hi => inSweep i (scanWindow config chain hi) w
  | .scanDone i => inSweep i (scanDone config) w
  | .scanFail i => inSweep i scanFail w
  | .crash => ⟨w.store, .idle, []⟩

end Processes

end LpTerminal.Catalog.V4Rpc
