import LpTerminal.Lib.Durable
import LpTerminal.Lib.Fallible
import LpTerminal.Store.Jobs

/-!
What a strategy owns in the shared wallet: the totals of `allocations`, their split in
`allocation_components`, and the store operations that write them.
-/

namespace LpTerminal.Allocations

open Durable Fallible Store

/-- A token as a caller spells it. Spelling 0 is the lower-case one, under which the tables keep it. -/
structure RawToken where
  address : Address
  spelling : ℕ
  deriving DecidableEq, Repr

def RawToken.toLowerCase (token : RawToken) : Address := token.address

def RawToken.ofLowerCase (token : Address) : RawToken := ⟨token, 0⟩

abbrev Record (α : Type) := List (RawToken × α)

structure AllocationComponent where
  principal : ℤ
  heldFee : ℤ
  heldProfit : ℤ
  deriving DecidableEq, Repr

namespace AllocationComponent

def total (parts : AllocationComponent) : ℤ := parts.principal + parts.heldFee + parts.heldProfit

def NonNegative (parts : AllocationComponent) : Prop := 0 ≤ parts.principal ∧ 0 ≤ parts.heldFee ∧ 0 ≤ parts.heldProfit

instance (parts : AllocationComponent) : Decidable parts.NonNegative := inferInstanceAs (Decidable (_ ∧ _ ∧ _))

def zero : AllocationComponent := ⟨0, 0, 0⟩

def held (total : ℤ) : AllocationComponent := ⟨0, total, 0⟩

def compound (parts : AllocationComponent) : AllocationComponent :=
  { parts with principal := parts.principal + parts.heldFee, heldFee := 0 }

end AllocationComponent

structure StrategyRow where
  id : StrategyId
  walletId : Option WalletId
  archived : Bool

structure AllocationRow where
  strategyId : StrategyId
  token : Address
  amount : ℤ

structure ComponentRow where
  strategyId : StrategyId
  token : Address
  parts : AllocationComponent
  nonNegative : parts.NonNegative

def AllocationRow.key (row : AllocationRow) : ℕ ×ₗ ℕ := toLex (row.strategyId, row.token)

def ComponentRow.key (row : ComponentRow) : ℕ ×ₗ ℕ := toLex (row.strategyId, row.token)

abbrev AllocationTable := Table AllocationRow.key

abbrev ComponentTable := Table ComponentRow.key

structure AllocationStore where
  strategies : Table StrategyRow.id
  allocations : AllocationTable
  components : ComponentTable
  ledger : Ledger

def strategyAllocation (store : AllocationStore) (strategyId : StrategyId) (token : Address) : Option ℤ :=
  (store.allocations.get? (toLex (strategyId, token))).map AllocationRow.amount

def storedComponent (store : AllocationStore) (strategyId : StrategyId) (token : Address) : Option AllocationComponent :=
  (store.components.get? (toLex (strategyId, token))).map ComponentRow.parts

def classify (stored : Option AllocationComponent) (total : ℤ) : AllocationComponent :=
  match stored with
  | some parts => if parts.NonNegative ∧ parts.total = total then parts else .held total
  | none => .held total

/-- `strategyAllocationComponents`, one token at a time. -/
def strategyAllocationComponents (store : AllocationStore) (strategyId : StrategyId) (token : Address) : Option AllocationComponent :=
  (strategyAllocation store strategyId token).map (classify (storedComponent store strategyId token))

def setAllocation (strategyId : StrategyId) (table : AllocationTable) (entry : RawToken × ℤ) : AllocationTable :=
  table.put ⟨strategyId, entry.1.toLowerCase, entry.2⟩

def setAllocations (strategyId : StrategyId) (allocations : Record ℤ) (store : AllocationStore) : AllocationStore :=
  { store with allocations := allocations.foldl (setAllocation strategyId) store.allocations }

def setAllocationComponents (strategyId : StrategyId) :
    Record AllocationComponent → ComponentTable → Except ErrorCode ComponentTable
  | [], table => .ok table
  | (token, parts) :: rest, table =>
    if nonNegative : parts.NonNegative then
      setAllocationComponents strategyId rest (table.put ⟨strategyId, token.toLowerCase, parts, nonNegative⟩)
    else .error .allocationMismatch

def writeComponents (strategyId : StrategyId) (components : Record AllocationComponent) : Durable ErrorCode AllocationStore Unit :=
  tryWrite fun store => (setAllocationComponents strategyId components store.components).map fun table => { store with components := table }

def setArchived (strategyId : StrategyId) (archived : Bool) (store : AllocationStore) : AllocationStore :=
  { store with
    strategies := store.strategies.adjust (fun row => if row.id = strategyId then { row with archived } else row) fun row => by
      split <;> rfl }

/-- What `commitRebalance` and `commitFeeCollection` write to the allocations: every component has to make up
the allocation of its token. -/
def commitAllocations (strategyId : StrategyId) (allocations : Record ℤ) (allocationComponents : Option (Record AllocationComponent)) :
    Durable ErrorCode AllocationStore Unit := do
  write (setAllocations strategyId allocations)
  match allocationComponents with
  | none => return ()
  | some components => do
    reply (demand (∀ entry ∈ components,
      some entry.2.total = (allocations.lookup (.ofLowerCase entry.1.toLowerCase)).or (allocations.lookup entry.1)) .allocationMismatch)
    writeComponents strategyId components

/-- The arguments of the commits; `rest` stands for the other writes, any of which may throw. -/
structure CommitArgs where
  strategyId : StrategyId
  allocations : Record ℤ
  allocationComponents : Option (Record AllocationComponent) := none
  rest : Except ErrorCode Unit := .ok ()

def commitRebalance (args : CommitArgs) : Durable ErrorCode AllocationStore Unit :=
  atomically do
    write (setArchived args.strategyId false)
    commitAllocations args.strategyId args.allocations args.allocationComponents
    reply args.rest

def commitFeeCollection (args : CommitArgs) : Durable ErrorCode AllocationStore Unit :=
  atomically do
    commitAllocations args.strategyId args.allocations args.allocationComponents
    reply args.rest
    write (setArchived args.strategyId false)

def commitHoldQuote (strategyId : StrategyId) (allocations : Record ℤ) (rest : Except ErrorCode Unit) :
    Durable ErrorCode AllocationStore Unit :=
  atomically do
    write (setArchived strategyId false)
    write (setAllocations strategyId allocations)
    reply rest

def archiveStrategy (strategyId : StrategyId) (allocations : Option (Record ℤ)) (rest : Except ErrorCode Unit) :
    Durable ErrorCode AllocationStore Unit :=
  atomically do
    let store ← read
    reply (demand (store.strategies.get? strategyId).isSome .strategyMissing)
    reply rest
    write (setAllocations strategyId (allocations.getD []))
    write (setArchived strategyId true)

theorem compound_nonNegative {parts : AllocationComponent} (nonNegative : parts.NonNegative) : parts.compound.NonNegative := by
  obtain ⟨principal, heldFee, heldProfit⟩ := nonNegative
  exact ⟨add_nonneg principal heldFee, le_refl 0, heldProfit⟩

def ComponentRow.compound (strategyId : StrategyId) (row : ComponentRow) : ComponentRow :=
  if row.strategyId = strategyId then { row with parts := row.parts.compound, nonNegative := compound_nonNegative row.nonNegative }
  else row

theorem compound_key (strategyId : StrategyId) (row : ComponentRow) : (row.compound strategyId).key = row.key := by
  unfold ComponentRow.compound
  split <;> rfl

def compoundHeldAllocations (strategyId : StrategyId) : Durable ErrorCode AllocationStore Unit :=
  write fun store => { store with components := store.components.adjust (ComponentRow.compound strategyId) (compound_key strategyId) }

/-- `Object.fromEntries`: a key set again keeps its place and takes the new value. -/
def setEntry {α : Type} (token : Address) (value : α) : List (Address × α) → List (Address × α)
  | [] => [(token, value)]
  | first :: rest => if first.1 = token then (token, value) :: rest else first :: setEntry token value rest

def fromEntries {α : Type} (record : Record α) : List (Address × α) :=
  record.foldl (fun entries entry => setEntry entry.1.toLowerCase entry.2 entries) []

def counted (store : AllocationStore) (walletId : WalletId) (strategyId : StrategyId) : Bool :=
  match store.strategies.get? strategyId with
  | some strategy => strategy.walletId = some walletId && !strategy.archived
  | none => false

def walletTotal (store : AllocationStore) (walletId : WalletId) (token : Address) : ℤ :=
  store.allocations.total (fun row => counted store walletId row.strategyId && row.token = token) AllocationRow.amount

def walletShare (store : AllocationStore) (walletId : WalletId) (strategyId : StrategyId) (token : Address) : ℤ :=
  store.allocations.total (fun row => counted store walletId row.strategyId && row.token = token && row.strategyId = strategyId)
    AllocationRow.amount

/-- `totals[token] = totals[token] - current[token] + amount`, key by key. -/
def updatedTotals (store : AllocationStore) (walletId : WalletId) (strategyId : StrategyId) (nextAllocations : Record ℤ) :
    Address → ℤ :=
  nextAllocations.foldl
    (fun totals entry =>
      let token := entry.1.toLowerCase
      Function.update totals token (totals token - walletShare store walletId strategyId token + entry.2))
    (walletTotal store walletId)

def balanceOf (balances : Record ℤ) (token : Address) : ℤ :=
  (balances.lookup (.ofLowerCase token)).getD 0

def assertWalletAllocationUpdate (store : AllocationStore) (walletId : WalletId) (strategyId : StrategyId) (balances : Record ℤ)
    (nextAllocations : Record ℤ) : Except ErrorCode Unit :=
  let totals := updatedTotals store walletId strategyId nextAllocations
  demand (∀ entry ∈ nextAllocations,
    0 ≤ totals entry.1.toLowerCase ∧ totals entry.1.toLowerCase ≤ balanceOf balances entry.1.toLowerCase) .allocationMismatch

structure MutationArgs where
  strategyId : StrategyId
  walletId : WalletId
  expected : Record AllocationComponent
  next : Record AllocationComponent
  balances : Record ℤ
  ledger : List LedgerEntry := []
  /-- The answer of the database to the writes and the commit. -/
  stored : Except ErrorCode Unit := .ok ()

def recheckedComponent (store : AllocationStore) (strategyId : StrategyId) (token : Address) : AllocationComponent :=
  let total := (strategyAllocation store strategyId token).getD 0
  match storedComponent store strategyId token with
  | some parts => if parts.total = total then parts else .held total
  | none => .held total

def lowered {α : Type} (record : Record α) : Record α :=
  (fromEntries record).map fun entry => (.ofLowerCase entry.1, entry.2)

def nextTotals (next : Record AllocationComponent) : Record ℤ :=
  (lowered next).map fun entry => (entry.1, entry.2.total)

def commitProfitAllocationMutation (args : MutationArgs) : Durable ErrorCode AllocationStore Unit := do
  let store ← read
  reply (demand (∀ entry ∈ args.expected,
    (strategyAllocationComponents store args.strategyId entry.1.toLowerCase).getD .zero = entry.2) .allocationChanged)
  reply (demand (∀ entry ∈ args.next, entry.2.NonNegative) .allocationMismatch)
  reply (assertWalletAllocationUpdate store args.walletId args.strategyId args.balances (nextTotals args.next))
  atomically do
    let store ← read
    reply (demand (∀ entry ∈ args.expected, recheckedComponent store args.strategyId entry.1.toLowerCase = entry.2) .allocationChanged)
    write (setAllocations args.strategyId (nextTotals args.next))
    writeComponents args.strategyId (lowered args.next)
    write fun store => { store with ledger := args.ledger.foldl insertOrIgnore store.ledger }
    reply args.stored

end LpTerminal.Allocations
