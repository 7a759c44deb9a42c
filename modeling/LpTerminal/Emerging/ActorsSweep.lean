import LpTerminal.Emerging.ChainEvents
import LpTerminal.Lib.Table
import LpTerminal.Lib.Trace
import LpTerminal.Lib.TransferLedger

/-!
The balance ledger of a tracked token, and the actors sweep: per token it consumes the transfers after its watermark into the
stored balances, or replays them from the start when a consumed event was archived.
-/

namespace LpTerminal.Emerging

abbrev Address := ℕ

def ZERO_ADDRESS : Address := 0

abbrev TransferDelta := Transfer Address

abbrev Balances := Table (fun row : Address × ℤ => row.1)

/-- `balances.get(address) ?? 0n`. -/
def held (balances : Balances) (address : Address) : ℤ :=
  ((balances.get? address).map Prod.snd).getD 0

def sum (balances : Balances) : ℤ := balances.total (fun _ => true) Prod.snd

structure Ledger where
  balances : Balances
  minted : ℤ
  burned : ℤ
  corrupt : Bool

def emptyLedger : Ledger := ⟨.empty, 0, 0, false⟩

def debitSender (balances : Balances) (d : TransferDelta) : Balances :=
  let b : ℤ := held balances d.sender
  let next : ℤ := if d.value ≤ b then b - d.value else 0
  if next = 0 ∧ b ≠ 0 then balances.remove d.sender else balances.put (d.sender, next)

def creditReceiver (balances : Balances) (d : TransferDelta) : Balances :=
  balances.put (d.receiver, held balances d.receiver + d.value)

def takeFrom (ledger : Ledger) (d : TransferDelta) : Ledger :=
  if d.sender = ZERO_ADDRESS then { ledger with minted := ledger.minted + d.value }
  else
    { ledger with
      balances := debitSender ledger.balances d
      corrupt := ledger.corrupt || decide (held ledger.balances d.sender < d.value) }

def giveTo (ledger : Ledger) (d : TransferDelta) : Ledger :=
  if d.receiver = ZERO_ADDRESS then { ledger with burned := ledger.burned + d.value }
  else { ledger with balances := creditReceiver ledger.balances d }

def applyDelta (ledger : Ledger) (d : TransferDelta) : Ledger :=
  giveTo (takeFrom ledger d) d

variable {balances : Balances} {a : Address} {v : ℤ}

theorem held_put_same : held (balances.put (a, v)) a = v := by
  unfold held
  rw [show a = (fun row : Address × ℤ => row.1) (a, v) from rfl, Table.get?_put_same]
  rfl

theorem held_put_other {other : Address} (apart : other ≠ a) : held (balances.put (a, v)) other = held balances other := by
  unfold held
  rw [Table.get?_put_other apart]

theorem held_remove_same : held (balances.remove a) a = 0 := by
  unfold held
  rw [Table.get?_remove_same]
  rfl

theorem held_remove_other {other : Address} (apart : other ≠ a) : held (balances.remove a) other = held balances other := by
  unfold held
  rw [Table.get?_remove_other apart]

theorem sum_remove : sum balances = sum (balances.remove a) + held balances a :=
  Table.total_remove a

theorem sum_put : sum (balances.put (a, v)) = sum balances + v - held balances a := by
  have put : sum (balances.put (a, v)) = v + sum (balances.remove a) := Table.total_put_all
  have whole := @sum_remove balances a
  omega

theorem get?_held {row : Address × ℤ} (read : balances.get? a = some row) : row = (a, held balances a) := by
  have named := Table.get?_key read
  have value : held balances a = row.2 := by
    unfold held
    rw [read]
    rfl
  rw [value, ← named]

theorem get?_of_held (some' : held balances a ≠ 0) : balances.get? a = some (a, held balances a) := by
  cases read : balances.get? a with
  | none =>
    unfold held at some'
    rw [read] at some'
    exact absurd rfl some'
  | some row => rw [← get?_held read]

variable {ledger : Ledger} {d : TransferDelta} {before batch : List TransferDelta}

theorem held_debitSender (covered : (d.value : ℤ) ≤ held balances d.sender) :
    held (debitSender balances d) a = held balances a - d.debit a := by
  unfold debitSender
  dsimp only
  rw [if_pos covered]
  by_cases own : a = d.sender
  · have debit : d.debit a = d.value := if_pos own.symm
    subst own
    split
    · rename_i emptied
      rw [held_remove_same]
      omega
    · rw [held_put_same]
      omega
  · rw [Transfer.debit_other (Ne.symm own)]
    split
    · rw [held_remove_other own]
      omega
    · rw [held_put_other own]
      omega

theorem sum_debitSender (covered : (d.value : ℤ) ≤ held balances d.sender) :
    sum (debitSender balances d) = sum balances - d.value := by
  have whole := @sum_remove balances d.sender
  unfold debitSender
  dsimp only
  rw [if_pos covered]
  split
  · omega
  · rw [sum_put]
    omega

theorem held_creditReceiver : held (creditReceiver balances d) a = held balances a + d.credit a := by
  unfold creditReceiver
  by_cases own : a = d.receiver
  · have credit : d.credit a = d.value := if_pos own.symm
    subst own
    rw [held_put_same, credit]
  · rw [held_put_other own, Transfer.credit_other (Ne.symm own)]
    omega

theorem sum_creditReceiver : sum (creditReceiver balances d) = sum balances + d.value := by
  unfold creditReceiver
  rw [sum_put]
  omega

theorem get?_debitSender (other : a ≠ d.sender) : (debitSender balances d).get? a = balances.get? a := by
  unfold debitSender
  dsimp only
  generalize (if (d.value : ℤ) ≤ held balances d.sender then held balances d.sender - (d.value : ℤ) else 0) = next
  split
  · exact Table.get?_remove_other other
  · exact Table.get?_put_other other

theorem get?_creditReceiver (other : a ≠ d.receiver) : (creditReceiver balances d).get? a = balances.get? a :=
  Table.get?_put_other other

def Blank (balances : Balances) (a : Address) : Prop := balances.get? a = some (a, 0)

theorem Blank.held (blank : Blank balances a) : held balances a = 0 := by
  unfold Emerging.held
  rw [blank]
  rfl

/-- The balances are those of a history; the zero address has none. -/
structure Tracks (balances : Balances) (history : List TransferDelta) : Prop where
  zero : balances.get? ZERO_ADDRESS = none
  held : ∀ a, a ≠ ZERO_ADDRESS → held balances a = Transfer.balance history a
  nonneg : ∀ a, a ≠ ZERO_ADDRESS → 0 ≤ Transfer.balance history a

def Covers (before : List TransferDelta) (d : TransferDelta) : Prop :=
  d.sender ≠ ZERO_ADDRESS → d.value ≤ Transfer.balance before d.sender

theorem takeFrom_held (tracks : Tracks ledger.balances before) (covered : Covers before d) (other : a ≠ ZERO_ADDRESS) :
    held (takeFrom ledger d).balances a = held ledger.balances a - d.debit a := by
  unfold takeFrom
  split
  · rename_i source
    rw [Transfer.debit_other (by rw [source]; exact Ne.symm other)]
    exact (sub_zero _).symm
  · rename_i sender
    have enough := covered sender
    rw [← tracks.held _ sender] at enough
    exact held_debitSender enough

theorem takeFrom_blank (tracks : Tracks ledger.balances before) (covered : Covers before d) (blank : Blank (takeFrom ledger d).balances a) :
    Blank ledger.balances a ∨ (a = d.sender ∧ d.value = 0 ∧ held ledger.balances a = 0) := by
  unfold takeFrom at blank
  split at blank
  · exact Or.inl blank
  · rename_i sender
    have enough := covered sender
    rw [← tracks.held _ sender] at enough
    by_cases own : a = d.sender
    · subst own
      have none := blank.held
      dsimp only at none blank
      rw [held_debitSender enough, show d.debit d.sender = d.value from if_pos rfl] at none
      by_cases nothing : held ledger.balances d.sender = 0
      · exact Or.inr ⟨rfl, by omega, nothing⟩
      · -- an emptied account loses its row
        have removed : debitSender ledger.balances d = ledger.balances.remove d.sender := by
          unfold debitSender
          dsimp only
          rw [if_pos enough, if_pos ⟨none, nothing⟩]
        rw [Blank, removed, Table.get?_remove_same] at blank
        cases blank
    · exact Or.inl ((get?_debitSender own).symm.trans blank)

theorem giveTo_held (other : a ≠ ZERO_ADDRESS) : held (giveTo ledger d).balances a = held ledger.balances a + d.credit a := by
  unfold giveTo
  split
  · rename_i source
    rw [Transfer.credit_other (by rw [source]; exact Ne.symm other)]
    exact (add_zero _).symm
  · exact held_creditReceiver

theorem giveTo_blank (other : a ≠ ZERO_ADDRESS) (blank : Blank (giveTo ledger d).balances a) :
    (a ≠ d.receiver ∧ Blank ledger.balances a) ∨ (a = d.receiver ∧ held ledger.balances a + d.value = 0) := by
  by_cases own : a = d.receiver
  · have none := blank.held
    rw [giveTo_held other, show d.credit a = d.value from if_pos own.symm] at none
    exact Or.inr ⟨own, none⟩
  · unfold giveTo at blank
    split at blank
    · exact Or.inl ⟨own, blank⟩
    · exact Or.inl ⟨own, (get?_creditReceiver own).symm.trans blank⟩

section

variable (tracks : Tracks ledger.balances before)
include tracks

theorem applyDelta_zero : (applyDelta ledger d).balances.get? ZERO_ADDRESS = none := by
  have taken : (takeFrom ledger d).balances.get? ZERO_ADDRESS = none := by
    unfold takeFrom
    split
    · exact tracks.zero
    · rename_i sender
      exact (get?_debitSender (Ne.symm sender)).trans tracks.zero
  unfold applyDelta giveTo
  split
  · exact taken
  · rename_i receiver
    exact (get?_creditReceiver (Ne.symm receiver)).trans taken

theorem applyDelta_held (covered : Covers before d) (other : a ≠ ZERO_ADDRESS) :
    held (applyDelta ledger d).balances a = held ledger.balances a + d.credit a - d.debit a := by
  unfold applyDelta
  rw [giveTo_held other, takeFrom_held tracks covered other]
  omega

theorem applyDelta_tracks (covered : Covers before d) :
    Tracks (applyDelta ledger d).balances (before ++ [d]) where
  zero := applyDelta_zero tracks
  held a other := by rw [applyDelta_held tracks covered other, tracks.held a other, Transfer.balance_snoc]
  nonneg a other := Transfer.balance_nonneg ⟨covered, trivial⟩ other (tracks.nonneg a other)

theorem applyDelta_sum (covered : Covers before d) :
    sum (applyDelta ledger d).balances = sum ledger.balances + d.debit ZERO_ADDRESS - d.credit ZERO_ADDRESS := by
  have taken : sum (takeFrom ledger d).balances = sum ledger.balances + d.debit ZERO_ADDRESS - d.value := by
    unfold takeFrom
    split
    · rename_i source
      rw [show d.debit ZERO_ADDRESS = d.value from if_pos source]
      dsimp only
      omega
    · rename_i sender
      have enough := covered sender
      rw [← tracks.held _ sender] at enough
      have moved : sum (debitSender ledger.balances d) = sum ledger.balances - d.value := sum_debitSender enough
      rw [Transfer.debit_other sender]
      dsimp only
      omega
  unfold applyDelta giveTo
  split
  · rename_i source
    rw [show d.credit ZERO_ADDRESS = d.value from if_pos source]
    dsimp only
    omega
  · rename_i receiver
    rw [Transfer.credit_other receiver]
    have moved : sum (creditReceiver (takeFrom ledger d).balances d) = sum (takeFrom ledger d).balances + d.value :=
      sum_creditReceiver
    dsimp only
    omega

end

theorem applyDelta_minted : (applyDelta ledger d).minted = ledger.minted + d.debit ZERO_ADDRESS := by
  unfold applyDelta giveTo takeFrom Transfer.debit
  split <;> split <;> simp [*]

theorem applyDelta_burned : (applyDelta ledger d).burned = ledger.burned + d.credit ZERO_ADDRESS := by
  unfold applyDelta giveTo takeFrom Transfer.credit
  split <;> split <;> simp [*]

theorem applyDelta_blank (tracks : Tracks ledger.balances before) (covered : Covers before d) (other : a ≠ ZERO_ADDRESS)
    (blank : Blank (applyDelta ledger d).balances a) :
    ¬ Transfer.Paid a [d] ∧
      (Blank ledger.balances a ∨ (d.value = 0 ∧ a ∈ [d.sender, d.receiver] ∧ Transfer.balance before a = 0)) := by
  have least := tracks.nonneg a other
  have here := tracks.held a other
  have unpaid : a ≠ d.receiver ∨ d.value = 0 → ¬ Transfer.Paid a [d] := by
    rintro free ⟨t, member, receiver, value⟩
    rw [List.mem_singleton.mp member] at receiver value
    rcases free with apart | nothing
    · exact apart receiver.symm
    · omega
  rcases giveTo_blank other blank with ⟨apart, blank⟩ | ⟨own, nothing⟩
  · rcases takeFrom_blank tracks covered blank with old | ⟨sender, value, none⟩
    · exact ⟨unpaid (Or.inl apart), Or.inl old⟩
    · exact ⟨unpaid (Or.inl apart), Or.inr ⟨value, by simp [sender], by rw [← here, none]⟩⟩
  · rw [takeFrom_held tracks covered other] at nothing
    have enough : d.debit a ≤ Transfer.balance before a := by
      by_cases sender : d.sender = a
      · have amount := covered (sender ▸ other)
        rw [show d.debit a = d.value from if_pos sender, ← sender]
        exact amount
      · rw [Transfer.debit_other sender]
        exact least
    have value : d.value = 0 := by omega
    have debit : d.debit a = 0 := by
      unfold Transfer.debit
      split <;> simp [value]
    exact ⟨unpaid (Or.inr value), Or.inr ⟨value, by simp [own], by omega⟩⟩

def consume (ledger : Ledger) (batch : List TransferDelta) : Ledger := batch.foldl applyDelta ledger

theorem consume_tracks (tracks : Tracks ledger.balances before) (covered : Transfer.Covered ZERO_ADDRESS before batch) :
    Tracks (consume ledger batch).balances (before ++ batch) := by
  induction batch generalizing ledger before with
  | nil => simpa [consume] using tracks
  | cons d rest ih =>
    have next := ih (applyDelta_tracks tracks covered.1) covered.2
    simpa [consume] using next

theorem consume_sum (tracks : Tracks ledger.balances before) (covered : Transfer.Covered ZERO_ADDRESS before batch) :
    sum (consume ledger batch).balances =
      sum ledger.balances + Transfer.minted ZERO_ADDRESS batch - Transfer.burned ZERO_ADDRESS batch := by
  induction batch generalizing ledger before with
  | nil => simp [consume, Transfer.minted, Transfer.burned]
  | cons d rest ih =>
    have next := ih (applyDelta_tracks tracks covered.1) covered.2
    rw [applyDelta_sum tracks covered.1] at next
    simp only [consume, List.foldl_cons, Transfer.minted, Transfer.burned, List.map_cons, List.sum_cons] at next ⊢
    omega

theorem consume_minted : (consume ledger batch).minted = ledger.minted + Transfer.minted ZERO_ADDRESS batch := by
  induction batch generalizing ledger with
  | nil => simp [consume, Transfer.minted]
  | cons d rest ih =>
    have next := @ih (applyDelta ledger d)
    rw [applyDelta_minted] at next
    simp only [consume, List.foldl_cons, Transfer.minted, List.map_cons, List.sum_cons] at next ⊢
    omega

theorem consume_burned : (consume ledger batch).burned = ledger.burned + Transfer.burned ZERO_ADDRESS batch := by
  induction batch generalizing ledger with
  | nil => simp [consume, Transfer.burned]
  | cons d rest ih =>
    have next := @ih (applyDelta ledger d)
    rw [applyDelta_burned] at next
    simp only [consume, List.foldl_cons, Transfer.burned, List.map_cons, List.sum_cons] at next ⊢
    omega

theorem consume_blank (tracks : Tracks ledger.balances before) (covered : Transfer.Covered ZERO_ADDRESS before batch)
    (refilled : Transfer.Refilled ZERO_ADDRESS before batch) (other : a ≠ ZERO_ADDRESS)
    (blank : Blank (consume ledger batch).balances a) : Blank ledger.balances a ∧ ¬ Transfer.Paid a batch := by
  induction batch generalizing ledger before with
  | nil => exact ⟨blank, by simp [Transfer.Paid]⟩
  | cons d rest ih =>
    obtain ⟨early, unpaid⟩ := ih (applyDelta_tracks tracks covered.1) covered.2 refilled.2 blank
    obtain ⟨notNow, source⟩ := applyDelta_blank tracks covered.1 other early
    have never : ¬ Transfer.Paid a (d :: rest) := by
      rintro ⟨t, member, receiver, value⟩
      rcases List.mem_cons.mp member with rfl | later
      · exact notNow ⟨t, List.mem_singleton_self t, receiver, value⟩
      · exact unpaid ⟨t, later, receiver, value⟩
    rcases source with old | ⟨value, touched, empty⟩
    · exact ⟨old, never⟩
    · exact absurd (refilled.1 value a touched other empty) unpaid

inductive ReconcileStatus where
  | matched
  | mismatch
  | reorgStale
  deriving DecidableEq

/-- A row of `emerging_supply_state`. -/
structure SupplyState where
  watermarkRowid : ℕ
  totalSupply : ℤ
  minted : ℤ
  burned : ℤ
  balanceSum : ℤ
  supplyBlock : Option ℕ
  reconcileStatus : Option ReconcileStatus

structure ActorStore where
  events : ChainEvents
  /-- The rows of `emerging_supply_balances` of a token. -/
  balances : Address → Balances
  states : Address → Option SupplyState

def emptyActorStore : ActorStore := ⟨[], fun _ => .empty, fun _ => none⟩

def isTransferOf (token : Address) (row : ChainEvent) : Bool :=
  row.token = some token ∧ row.canonical ∧ row.kind = .transfer

def stream (events : ChainEvents) (token : Address) : ChainEvents :=
  events.filter (isTransferOf token)

def transfersAfter (events : ChainEvents) (token : Address) (watermark : ℕ) : ChainEvents :=
  (stream events token).filter fun row => watermark < row.rid

def archivedAtOrBelow (events : ChainEvents) (token : Address) (block : ℕ) : ℕ :=
  events.countP fun row => row.token = some token ∧ row.canonical = false ∧ row.blockNumber ≤ block

def delta (row : ChainEvent) : Option TransferDelta :=
  match row.payload.sender, row.payload.receiver, row.payload.value with
  | some sender, some receiver, some value => some ⟨sender, receiver, value⟩
  | _, _, _ => none

def ActorStore.isStale (store : ActorStore) (token : Address) : Bool :=
  (store.states token).any fun state => state.reconcileStatus = some .reorgStale

def markStale (store : ActorStore) (token : Address) : ActorStore :=
  match store.states token with
  | none => store
  | some state =>
    if state.reconcileStatus ≠ some .reorgStale ∧ state.supplyBlock.any (fun block => 0 < archivedAtOrBelow store.events token block) then
      { store with
        balances := Function.update store.balances token .empty
        states := Function.update store.states token (some { state with
          reconcileStatus := some .reorgStale
          watermarkRowid := 0
          totalSupply := 0
          minted := 0
          burned := 0
          balanceSum := 0 }) }
    else store

structure Progress where
  ledger : Ledger
  watermark : ℕ
  lastBlock : ℕ

def startingProgress (store : ActorStore) (token : Address) : Progress :=
  match store.states token with
  | none => ⟨emptyLedger, 0, 0⟩
  | some state =>
    if state.reconcileStatus = some .reorgStale then ⟨emptyLedger, 0, 0⟩
    else ⟨⟨store.balances token, state.minted, state.burned, false⟩, state.watermarkRowid, state.supplyBlock.getD 0⟩

def consumeRow (progress : Progress) (row : ChainEvent) : Progress :=
  match delta row with
  | none => progress
  | some d => ⟨applyDelta progress.ledger d, row.rid, max progress.lastBlock row.blockNumber⟩

/-- `totalSupply` is what the contract answered, if it was asked and did. -/
def reconcile (computed : ℤ) (stored : Option ReconcileStatus) (totalSupply : Option ℤ) : Option ReconcileStatus :=
  match totalSupply with
  | some value => some (if value = computed then .matched else .mismatch)
  | none => if stored = some .reorgStale then none else stored

def sweepToken (totalSupply : Option ℤ) (store : ActorStore) (token : Address) : ActorStore :=
  let store := markStale store token
  let start := startingProgress store token
  let final := (transfersAfter store.events token start.watermark).foldl consumeRow start
  let supply : ℤ := final.ledger.minted - final.ledger.burned
  let kept : Balances := if store.isStale token then .empty else store.balances token
  { store with
    balances := Function.update store.balances token (final.ledger.balances.rows.foldl Table.put kept)
    states := Function.update store.states token (some {
      watermarkRowid := final.watermark
      totalSupply := supply
      minted := final.ledger.minted
      burned := final.ledger.burned
      balanceSum := sum final.ledger.balances
      supplyBlock := some final.lastBlock
      reconcileStatus := reconcile supply ((store.states token).bind (·.reconcileStatus)) totalSupply }) }

/-- `totalSupply` answers a token while the budget of reads lasts. -/
def runEmergingActorsSweep (totalSupply : Address → Option ℤ) : ℕ → List Address → ActorStore → ActorStore
  | _, [], store => store
  | 0, token :: rest, store => runEmergingActorsSweep totalSupply 0 rest (sweepToken none store token)
  | budget + 1, token :: rest, store => runEmergingActorsSweep totalSupply budget rest (sweepToken (totalSupply token) store token)

inductive ActorEvent where
  /-- A scan batch lands its events. -/
  | commit (events : List EventInsert)
  /-- A rewind archives what is above the ancestor. -/
  | rewind (ancestor : ℕ)
  | date (block ts : ℕ)
  | sweep (tokens : List Address) (budget : ℕ) (totalSupply : Address → Option ℤ)
  /-- A sweep that ends between the two transactions of the token after `tokens`. -/
  | interrupted (tokens : List Address) (budget : ℕ) (totalSupply : Address → Option ℤ) (last : Address)

def actorStep (store : ActorStore) : ActorEvent → ActorStore
  | .commit events => { store with events := events.foldl insertEvent store.events }
  | .rewind ancestor => { store with events := archiveAbove store.events ancestor }
  | .date block ts => { store with events := dateBlock store.events block ts }
  | .sweep tokens budget totalSupply => runEmergingActorsSweep totalSupply budget tokens store
  | .interrupted tokens budget totalSupply last => markStale (runEmergingActorsSweep totalSupply budget tokens store) last

end LpTerminal.Emerging
