import LpTerminal.Fables.WalletJobs
import LpTerminal.Recovery.HoldQuote
import LpTerminal.Store.AllocationParts

/-!
A hold-quote job in a wallet that other jobs and other people move too. Its allocations are the balances of the commit less
those of its precheck, whoever moved the wallet in between.
-/

namespace LpTerminal.SharedWallet

open Allocations Durable Fallible FeeTax HoldQuote Rebalance Receipts Store SwapJob SwapLegs Trace WalletLaw

structure SharedJob extends HoldJob where
  strategyId : StrategyId
  walletId : WalletId

/-- The rows of all jobs, the allocations of all strategies, and the state of the one job, whose wallet is the shared one. -/
structure World where
  rows : WalletJobs.WalletStore
  store : AllocationStore
  state : JobState

/-- What happens in the wallet: a job is created or moves between its states, a job of another strategy commits, somebody
else moves tokens (from outside, or by a transaction of another job), or the job sends its exit or makes an attempt. -/
inductive Event
  | call (call : WalletJobs.Call)
  | allocated (call : Allocations.Call)
  | moved (drift : Address → ℤ)
  | exit (stepIndex txIndex : Nat) (send : Send)
  | attempt (input : Attempt)

section
variable (market : Market) (job : SharedJob) (chain : ChainFacts job.owner) (context : PrecheckContext)

def Running (world : World) : Prop :=
  ∃ row, world.rows.jobs.get? job.id = some row ∧ row.status = .running

instance {world : World} : Decidable (Running job world) :=
  match found : world.rows.jobs.get? job.id with
  | none => .isFalse fun ⟨_, placed, _⟩ => by rw [found] at placed; cases placed
  | some row => decidable_of_iff (row.status = .running)
      ⟨fun status => ⟨row, found, status⟩, fun ⟨_, placed, status⟩ => by rw [found] at placed; cases placed; exact status⟩

def committedAllocations (commit : HoldCommit) : Record ℤ :=
  [(.ofLowerCase job.pair.token0, commit.allocation0), (.ofLowerCase job.pair.token1, commit.allocation1)]

def concluded (world : World) : Except ErrorCode HoldCommit × JobState → World
  | (.ok commit, state) =>
    { state
      store := left (commitHoldQuote job.strategyId (committedAllocations job commit) (.ok ())) world.store
      rows := WalletJobs.afterCall world.rows (.commitJob job.id (.ok ())) }
  | (.error _, state) => { world with state, rows := WalletJobs.afterCall world.rows (.attemptFailed job.id) }

def after (world : World) : Event → World
  | .call call => { world with rows := WalletJobs.afterCall world.rows call }
  | .allocated call => { world with store := left call.program world.store }
  | .moved drift => { world with state := left (driftWallet drift) world.state }
  | .exit stepIndex txIndex send =>
    if Running job world then { world with state := left (trackedSend job.toJob chain stepIndex txIndex send) world.state } else world
  | .attempt input =>
    if Running job world then concluded job world (HoldQuote.attempt market job.toHoldJob chain context world.state input) else world

def foreign (state : JobState) (token : Address) : ℤ :=
  state.wallet token - context.baseline token - (state.mined.map fun entry => chain.felt entry.2 token).sum

def ownFlow (state : JobState) (token : Address) : ℤ := (state.mined.map fun entry => chain.moved entry.2 token).sum

def setAside (commit : HoldCommit) (token : Address) : ℤ := if token = market.settlementToken then commit.taxUsdgActual else 0

def gasBack (state : JobState) (token : Address) : ℤ :=
  if token = zeroAddress then confirmedGas job.toHoldJob chain state else 0

def OwnOnly (state : JobState) (token : Address) : Prop :=
  foreign job chain context state token + gasBack job chain state token = if token = zeroAddress then gasPaid chain state.mined else 0

def Backed (store : AllocationStore) (state : JobState) (commit : HoldCommit) (token : Address) : Prop :=
  walletOthers store job.walletId job.strategyId token + context.prior token + gasBack job chain state token - setAside market commit token ≤
    context.baseline token

/-- The world at the precheck: balances and allocations are read, and no transaction is sent. -/
structure Prechecked (world : World) : Prop where
  baseline : ∀ token, context.baseline token = world.state.wallet token
  prior : ∀ token, context.prior token = (strategyAllocation world.store job.strategyId token).getD 0
  unsent : world.state.mined = []
  strategy : ∃ archived, world.store.strategies.get? job.strategyId = some ⟨job.strategyId, some job.walletId, archived⟩

end

section
variable {market : Market} {job : SharedJob} {chain : ChainFacts job.owner} {context : PrecheckContext}
variable {state : JobState} {commit : HoldCommit} {token : Address}

def PairToken (job : SharedJob) (token : Address) : Prop := token = job.pair.token0 ∨ token = job.pair.token1

def committedTo (job : SharedJob) (commit : HoldCommit) (token : Address) : ℤ :=
  if token = job.pair.token0 then commit.allocation0 else commit.allocation1

theorem commitHold_eq {tax : ℤ} (committed : commitHold market job.toHoldJob chain context state tax = .ok commit) :
    commit = ⟨allocationOf market job.toHoldJob chain context state tax job.pair.token0,
      allocationOf market job.toHoldJob chain context state tax job.pair.token1, tax⟩ := by
  unfold commitHold at committed
  iterate 3 obtain ⟨_, _, committed⟩ := bind_ok committed
  cases committed
  rfl

section

variable (committed : commitHold market job.toHoldJob chain context state commit.taxUsdgActual = .ok commit)
include committed

theorem committed_allocation
    (pair : PairToken job token) :
    committedTo job commit token = allocationOf market job.toHoldJob chain context state commit.taxUsdgActual token := by
  have same := commitHold_eq committed
  unfold committedTo
  rcases pair with rfl | rfl
  · rw [if_pos rfl]
    exact congrArg HoldCommit.allocation0 same
  · rw [if_neg job.pair.distinct.symm]
    exact congrArg HoldCommit.allocation1 same

theorem committed_eq
    (pair : PairToken job token) :
    committedTo job commit token = context.prior token + ownFlow job chain state token - setAside market commit token +
      (foreign job chain context state token + gasBack job chain state token - if token = zeroAddress then gasPaid chain state.mined else 0) := by
  rw [committed_allocation committed pair]
  unfold allocationOf economicFinal foreign ownFlow setAside gasBack
  rw [felt_sum]
  omega

theorem committed_own_iff
    (pair : PairToken job token) :
    committedTo job commit token = context.prior token + ownFlow job chain state token - setAside market commit token ↔
      OwnOnly job chain context state token := by
  rw [committed_eq committed pair]
  unfold OwnOnly
  omega

theorem committed_covered_iff
    (pair : PairToken job token) (store : AllocationStore) :
    walletOthers store job.walletId job.strategyId token + committedTo job commit token ≤ state.wallet token ↔
      Backed market job chain context store state commit token := by
  rw [committed_allocation committed pair]
  unfold allocationOf economicFinal Backed setAside gasBack
  omega

end

theorem attempt_committed {input : Attempt} (committed : (HoldQuote.attempt market job.toHoldJob chain context state input).1 = .ok commit) :
    commitHold market job.toHoldJob chain context (HoldQuote.attempt market job.toHoldJob chain context state input).2 commit.taxUsdgActual =
      .ok commit := by
  have ran : HoldQuote.attempt market job.toHoldJob chain context state input =
      (.ok commit, (HoldQuote.attempt market job.toHoldJob chain context state input).2) := Prod.ext committed rfl
  generalize (HoldQuote.attempt market job.toHoldJob chain context state input).2 = final at ran ⊢
  unfold HoldQuote.attempt finishHoldQuote at ran
  obtain ⟨tax, _, _, ran⟩ := bind_returns ran
  iterate 2 obtain ⟨_, _, _, ran⟩ := bind_returns ran
  obtain ⟨taxed, _, _, ran⟩ := bind_returns ran
  obtain ⟨swapped, _, _, ran⟩ := bind_returns ran
  unfold concludeHoldQuote at ran
  obtain ⟨_, last, _, ran⟩ := bind_returns ran
  obtain ⟨_, _, same, ran⟩ := bind_returns ran
  cases same
  have settles : commitHold market job.toHoldJob chain context last (retainedUsdg tax taxed.1) = .ok commit := congrArg Prod.fst ran
  have stays : last = final := congrArg Prod.snd ran
  have setAside := congrArg HoldCommit.taxUsdgActual (commitHold_eq settles)
  rw [← stays, setAside]
  exact settles

end

def movement : Event → Address → ℤ
  | .moved drift, token => drift token
  | _, _ => 0

def StillEvent (job : SharedJob) : Event → Prop
  | .attempt input => (∀ reply ∈ input.answer.taxReplies, Still job.pair reply.drift) ∧ Still job.pair input.answer.strategyReply.drift
  | _ => True

section
variable {market : Market} {job : SharedJob} {chain : ChainFacts job.owner} {context : PrecheckContext}

theorem after_exit (world : World) (stepIndex txIndex : Nat) (send : Send) :
    after market job chain context world (.exit stepIndex txIndex send) =
      if Running job world then { world with state := left (trackedSend job.toJob chain stepIndex txIndex send) world.state } else world := rfl

theorem after_attempt (world : World) (input : Attempt) :
    after market job chain context world (.attempt input) =
      if Running job world then concluded job world (HoldQuote.attempt market job.toHoldJob chain context world.state input) else world := rfl

theorem keeps_finishHoldQuote {I : JobState → Prop} (stable : Stable job.toJob chain I) {answer : HoldReply}
    (tax : ∀ reply ∈ answer.taxReplies, Still job.pair reply.drift) (strategy : Still job.pair answer.strategyReply.drift) :
    Keeps I (finishHoldQuote market job.toHoldJob chain context answer) := by
  unfold finishHoldQuote
  refine keeps_bind (keeps_ensureTax stable _ _ _ _) fun plan => keeps_bind (keeps_reply _) fun _ => keeps_bind keeps_read fun state => ?_
  refine keeps_bind (keeps_runTaxLegs stable _ _ _ _ tax) fun taxed => keeps_bind ?_ fun swapped => ?_
  · unfold swapRisk
    dsimp only
    split
    · exact keeps_bind (keeps_reply _) fun _ => keeps_bind (keeps_runLeg stable _ _ strategy) fun _ => keeps_pure _
    · exact keeps_pure _
  · unfold concludeHoldQuote
    exact keeps_bind (keeps_allowances stable _) fun _ => keeps_bind keeps_read fun final => keeps_reply _

theorem foreign_kept {start state : JobState} (kept : ∀ I, Stable job.toJob chain I → I start → I state) {token : Address}
    (pair : PairToken job token) : foreign job chain context state token = foreign job chain context start token := by
  have before : Accounted chain job.pair (fun token => context.baseline token + foreign job chain context start token) start := by
    intro token _
    unfold foreign
    dsimp only
    omega
  have accounts := kept _ (accounted_stable job.toJob chain _) before token pair
  unfold foreign at accounts ⊢
  omega

theorem foreign_after (world : World) {event : Event} (still : StillEvent job event) {token : Address} (pair : PairToken job token) :
    foreign job chain context (after market job chain context world event).state token =
      foreign job chain context world.state token + movement event token := by
  cases event with
  | call call => exact (add_zero _).symm
  | allocated call => exact (add_zero _).symm
  | moved drift =>
    change world.state.wallet token + drift token - context.baseline token -
      (world.state.mined.map fun entry => chain.felt entry.2 token).sum = foreign job chain context world.state token + drift token
    unfold foreign
    omega
  | exit stepIndex txIndex send =>
    change _ = foreign job chain context world.state token + 0
    rw [after_exit, add_zero]
    split
    · exact foreign_kept (fun I stable before => left_keeps (keeps_trackedSend stable stepIndex txIndex send) before) pair
    · rfl
  | attempt input =>
    change _ = foreign job chain context world.state token + 0
    rw [after_attempt, add_zero]
    split
    · obtain ⟨tax, strategy⟩ := still
      have kept : foreign job chain context (HoldQuote.attempt market job.toHoldJob chain context world.state input).2 token =
          foreign job chain context world.state token :=
        foreign_kept (fun I stable before =>
          left_keeps (keeps_finishHoldQuote stable tax strategy) (stable_resolveSlots stable input.landed world.state before)) pair
      have state : (concluded job world (HoldQuote.attempt market job.toHoldJob chain context world.state input)).state =
          (HoldQuote.attempt market job.toHoldJob chain context world.state input).2 := by
        rcases HoldQuote.attempt market job.toHoldJob chain context world.state input with ⟨_ | _, _⟩
        · rfl
        · rfl
      rw [state]
      exact kept
    · rfl

theorem foreign_run {start : World} {events : List Event} (still : ∀ event ∈ events, StillEvent job event) {token : Address}
    (pair : PairToken job token) :
    foreign job chain context (run (after market job chain context) start events).state token =
      foreign job chain context start.state token + (events.map fun event => movement event token).sum := by
  induction events generalizing start with
  | nil => exact (add_zero _).symm
  | cons event rest ih =>
    obtain ⟨first, still⟩ := List.forall_mem_cons.mp still
    rw [run_cons, ih still, foreign_after start first pair, List.map_cons, List.sum_cons, add_assoc]

end

section
variable {store : AllocationStore} {walletId : WalletId} {strategyId owner : StrategyId} {token : Address}

def InWallet (walletId : WalletId) (strategyId : StrategyId) (store : AllocationStore) : Prop :=
  ∃ archived, store.strategies.get? strategyId = some ⟨strategyId, some walletId, archived⟩

theorem setArchived_inWallet {archived : Bool} (known : InWallet walletId strategyId store) :
    InWallet walletId strategyId (setArchived owner archived store) := by
  obtain ⟨flag, placed⟩ := known
  unfold InWallet setArchived
  dsimp only
  rw [Table.get?_adjust, placed]
  dsimp only [Option.map_some]
  split
  · exact ⟨archived, rfl⟩
  · exact ⟨flag, rfl⟩

theorem writeComponents_inWallet (owner : StrategyId) (components : Record AllocationComponent) :
    Keeps (InWallet walletId strategyId) (writeComponents owner components) := by
  apply keeps_tryWrite
  intro before after known written
  cases placed : setAllocationComponents owner components before.components with
  | error e =>
    rw [placed] at written
    cases written
  | ok table =>
    rw [placed] at written
    cases written
    exact known

theorem commitAllocations_inWallet (owner : StrategyId) (allocations : Record ℤ) (components : Option (Record AllocationComponent)) :
    Keeps (InWallet walletId strategyId) (commitAllocations owner allocations components) := by
  refine keeps_bind (keeps_write fun _ known => known) fun _ => ?_
  split
  · exact keeps_pure _
  · exact keeps_bind (keeps_reply _) fun _ => writeComponents_inWallet owner _

theorem call_inWallet (call : Allocations.Call) : Keeps (InWallet walletId strategyId) call.program := by
  have throws : ∀ {m : Durable ErrorCode AllocationStore Unit}, Keeps (InWallet walletId strategyId) m →
      Keeps (InWallet walletId strategyId) (atomically m) := fun keeps =>
    keeps_atomically (triple_weaken keeps (fun _ known => known) (fun _ _ known => known) fun _ _ => trivial)
  cases call with
  | commitRebalance args =>
    exact throws (keeps_bind (keeps_write fun _ known => setArchived_inWallet known) fun _ =>
      keeps_bind (commitAllocations_inWallet _ _ _) fun _ => keeps_reply _)
  | commitFeeCollection args =>
    exact throws (keeps_bind (commitAllocations_inWallet _ _ _) fun _ =>
      keeps_bind (keeps_reply _) fun _ => keeps_write fun _ known => setArchived_inWallet known)
  | commitHoldQuote owner allocations rest =>
    exact throws (keeps_bind (keeps_write fun _ known => setArchived_inWallet known) fun _ =>
      keeps_bind (keeps_write fun _ known => known) fun _ => keeps_reply _)
  | archiveStrategy owner allocations rest =>
    exact throws (keeps_bind keeps_read fun _ => keeps_bind (keeps_reply _) fun _ => keeps_bind (keeps_reply _) fun _ =>
      keeps_bind (keeps_write fun _ known => known) fun _ => keeps_write fun _ known => setArchived_inWallet known)
  | commitProfitAllocationMutation args =>
    refine keeps_bind keeps_read fun _ => keeps_bind (keeps_reply _) fun _ => keeps_bind (keeps_reply _) fun _ =>
      keeps_bind (keeps_reply _) fun _ => throws ?_
    exact keeps_bind keeps_read fun _ => keeps_bind (keeps_reply _) fun _ => keeps_bind (keeps_write fun _ known => known) fun _ =>
      keeps_bind (writeComponents_inWallet _ _) fun _ => keeps_bind (keeps_write fun _ known => known) fun _ => keeps_reply _
  | compoundHeldAllocations owner => exact keeps_write fun _ known => known

theorem walletOthers_setArchived (archived : Bool) :
    walletOthers (setArchived strategyId archived store) walletId strategyId token = walletOthers store walletId strategyId token := by
  unfold walletOthers
  refine Table.total_congr fun row _ => ?_
  by_cases own : row.strategyId = strategyId
  · simp [own]
  · have same : counted (setArchived strategyId archived store) walletId row.strategyId = counted store walletId row.strategyId := by
      unfold counted setArchived
      dsimp only
      rw [Table.get?_adjust]
      cases placed : store.strategies.get? row.strategyId with
      | none => rfl
      | some strategy =>
        have key : strategy.id = row.strategyId := Table.get?_key placed
        dsimp only [Option.map_some]
        rw [if_neg (by rw [key]; exact own)]
    rw [same]

theorem commitHoldQuote_left (record : Record ℤ) :
    left (commitHoldQuote strategyId record (.ok ())) store = setAllocations strategyId record (setArchived strategyId false store) := rfl

end

section
variable {job : SharedJob} {commit : HoldCommit} {store : AllocationStore} {token : Address}

theorem committed_stored (pair : PairToken job token) :
    strategyAllocation (left (commitHoldQuote job.strategyId (committedAllocations job commit) (.ok ())) store) job.strategyId token =
      some (committedTo job commit token) := by
  rw [commitHoldQuote_left, setAllocations_allocation, if_pos rfl]
  unfold committedAllocations committedTo
  rcases pair with rfl | rfl
  · simp [lastFor, RawToken.ofLowerCase, RawToken.toLowerCase, job.pair.distinct.symm]
  · simp [lastFor, RawToken.ofLowerCase, RawToken.toLowerCase, job.pair.distinct.symm]

theorem committed_total (known : InWallet job.walletId job.strategyId store) (pair : PairToken job token) :
    walletTotal (left (commitHoldQuote job.strategyId (committedAllocations job commit) (.ok ())) store) job.walletId token =
      walletOthers store job.walletId job.strategyId token + committedTo job commit token := by
  rw [walletTotal_split _ _ job.strategyId, walletShare_eq, committed_stored pair, commitHoldQuote_left, walletOthers_setAllocations,
    walletOthers_setArchived, add_comm]
  have counts : counted (setAllocations job.strategyId (committedAllocations job commit) (setArchived job.strategyId false store))
      job.walletId job.strategyId = true := by
    obtain ⟨archived, placed⟩ := known
    unfold counted setAllocations setArchived
    dsimp only
    rw [Table.get?_adjust, placed]
    simp
  rw [if_pos counts]
  rfl

end

section
variable {market : Market} {job : SharedJob} {chain : ChainFacts job.owner} {context : PrecheckContext}

theorem after_inWallet (world : World) (event : Event) (known : InWallet job.walletId job.strategyId world.store) :
    InWallet job.walletId job.strategyId (after market job chain context world event).store := by
  cases event with
  | call call => exact known
  | allocated call => exact left_keeps (call_inWallet call) known
  | moved drift => exact known
  | exit stepIndex txIndex send =>
    rw [after_exit]
    split
    · exact known
    · exact known
  | attempt input =>
    rw [after_attempt]
    split
    · rcases HoldQuote.attempt market job.toHoldJob chain context world.state input with ⟨_ | commit, _⟩
      · exact known
      · exact left_keeps (call_inWallet (.commitHoldQuote job.strategyId (committedAllocations job commit) (.ok ()))) known
    · exact known

theorem after_committed {world : World} {input : Attempt} {commit : HoldCommit} (running : Running job world)
    (committed : (HoldQuote.attempt market job.toHoldJob chain context world.state input).1 = .ok commit) :
    after market job chain context world (.attempt input) =
      concluded job world (.ok commit, (HoldQuote.attempt market job.toHoldJob chain context world.state input).2) := by
  rw [after_attempt, if_pos running]
  exact congrArg _ (Prod.ext committed rfl)

end

/-- Whatever happened in the wallet since the precheck, a commit is the prior allocation and the flows of the job if and only
if nobody else moved the token in net, and the wallet covers its strategies if and only if the balance of the precheck covers
what the others hold by then and what this strategy held. Undisturbed, what the others moved is the sum of their movements. -/
theorem hold_quote_upheld_iff (market : Market) (job : SharedJob) (chain : ChainFacts job.owner) (context : PrecheckContext)
    {start : World} (prechecked : Prechecked job context start) (events : List Event) (input : Attempt) {commit : HoldCommit} {world final : World}
    (reached : world = run (after market job chain context) start events) (running : Running job world)
    (committed : (HoldQuote.attempt market job.toHoldJob chain context world.state input).1 = .ok commit)
    (concludes : final = after market job chain context world (.attempt input)) :
    (∀ token, PairToken job token →
      (strategyAllocation final.store job.strategyId token =
          some ((strategyAllocation start.store job.strategyId token).getD 0 + ownFlow job chain final.state token -
            setAside market commit token) ↔ OwnOnly job chain context final.state token) ∧
      (walletTotal final.store job.walletId token ≤ final.state.wallet token ↔
        Backed market job chain context world.store final.state commit token)) ∧
    ((∀ event ∈ events ++ [.attempt input], StillEvent job event) → ∀ token, PairToken job token →
      foreign job chain context final.state token = (events.map fun event => movement event token).sum) := by
  have known : InWallet job.walletId job.strategyId world.store := by
    rw [reached]
    exact run_keeps_all (fun state event => after_inWallet state event) prechecked.strategy events
  constructor
  · intro token pair
    rw [concludes, after_committed running committed]
    have settles := attempt_committed committed
    unfold concluded
    dsimp only
    rw [committed_stored pair, committed_total known pair, ← prechecked.prior, Option.some.injEq]
    exact ⟨committed_own_iff settles pair, committed_covered_iff settles pair world.store⟩
  · intro still token pair
    have whole : final = run (after market job chain context) start (events ++ [.attempt input]) := by
      rw [run_append, ← reached, concludes]
      rfl
    have nothing : foreign job chain context start.state token = 0 := by
      unfold foreign
      rw [prechecked.unsent, prechecked.baseline, sub_self]
      rfl
    rw [whole, foreign_run still pair, nothing, zero_add, List.map_append, List.sum_append]
    exact add_zero _

def exampleShared : SharedJob where
  toHoldJob := exampleJob
  strategyId := 1
  walletId := 1

def exampleFlows : ChainFacts 1 :=
  .ofEntries 1 (fun _ => .success) (fun _ => 10)
    (fun hash => if hash = 2 then [⟨7, .transfer 50 1 100⟩] else if hash = 3 then [⟨7, .transfer 1 50 100⟩, ⟨5, .transfer 50 1 90⟩] else [])
    fun _ => 0

def exampleWorld : World where
  rows :=
    { walletOf := fun _ => some 1
      addressOf := fun _ => some 1
      jobs := Table.empty
      unfinished := fun _ => false
      fables := ⟨Table.empty, Table.empty, Table.empty, []⟩ }
  store :=
    { strategies := (Table.empty.put ⟨1, some 1, false⟩).put ⟨2, some 1, false⟩
      allocations := Table.empty.put ⟨2, 5, 1000⟩
      components := Table.empty
      ledger := [] }
  state :=
    { journal := Journal.empty
      swapPlan := Table.empty
      executedSwaps := []
      feeTax := none
      capital := none
      wallet := fun _ => 1000
      mined := []
      settled := [] }

def exitSend (hash : Hash) : Send where
  txTo := 50
  calldataHash := 0
  nonce := hash
  outcome := .mined hash (.ok ())

def exampleRecovery (meanwhile : List Event) : List Event :=
  [.call (.createPlannedJob 1 1), .call (.runJob 1), .exit 1 0 (exitSend 1), .exit 2 0 (exitSend 2), .call (.attemptFailed 1)] ++ meanwhile ++
    [.call (.executeRecoveryLocked 1 .resumeFromWallet)]

def exampleCollection : List Event :=
  [.call (.createPlannedJob 2 2), .call (.runJob 2), .moved fun token => if token = 5 then 50 else 0,
    .allocated (.commitFeeCollection { strategyId := 2, allocations := [(.ofLowerCase 5, 1050)] }), .call (.commitJob 2 (.ok ()))]

def exampleReached (meanwhile : List Event) : World :=
  run (after exampleMarket exampleShared exampleFlows exampleContext) exampleWorld (exampleRecovery meanwhile)

def exampleFinal (meanwhile : List Event) : World :=
  after exampleMarket exampleShared exampleFlows exampleContext (exampleReached meanwhile) (.attempt exampleSwap)

theorem example_prechecked : Prechecked exampleShared exampleContext exampleWorld := by
  refine ⟨fun _ => rfl, fun token => ?_, rfl, false, rfl⟩
  change 0 = (strategyAllocation exampleWorld.store 1 token).getD 0
  unfold strategyAllocation exampleWorld
  dsimp only
  rw [Table.get?_put_other]
  · rfl
  · intro same
    have owner := congrArg (fun k => (ofLex k).1) same
    cases owner

theorem hold_quote_upheld_iff_alone :
    strategyAllocation (exampleFinal []).store 1 5 = some 90 ∧ walletTotal (exampleFinal []).store 1 5 ≤ (exampleFinal []).state.wallet 5 := by
  have committed : (HoldQuote.attempt exampleMarket exampleJob exampleFlows exampleContext (exampleReached []).state exampleSwap).1 =
      .ok ⟨0, 90, 0⟩ := rfl
  obtain ⟨each, moved⟩ := hold_quote_upheld_iff exampleMarket exampleShared exampleFlows exampleContext example_prechecked (exampleRecovery [])
    exampleSwap rfl (by decide) committed rfl
  have still : ∀ event ∈ exampleRecovery [] ++ [.attempt exampleSwap], StillEvent exampleShared event :=
    List.forall_iff_forall_mem.mp ⟨trivial, trivial, trivial, trivial, trivial, trivial, fun _ none => absurd none List.not_mem_nil, rfl, rfl⟩
  have alone := moved still 5 (Or.inr rfl)
  obtain ⟨own, covered⟩ := each 5 (Or.inr rfl)
  constructor
  · apply own.mpr
    unfold OwnOnly
    rw [alone]
    decide
  · apply covered.mpr
    unfold Backed
    decide

/-- While the job is in recovery, a job of another strategy is admitted and commits the 50 it collects. The hold-quote job then
counts them as its own, and the wallet holds less than it owes. -/
theorem other_job_absorbed :
    (exampleFinal exampleCollection).rows.jobs.get? 2 = some ⟨2, 2, .completed⟩ ∧
      assertWalletAllocationUpdate exampleWorld.store 1 2 [(.ofLowerCase 5, 1050)] [(.ofLowerCase 5, 1050)] = .ok () ∧
      (exampleFinal exampleCollection).rows.jobs.get? 1 = some ⟨1, 1, .completed⟩ ∧
      ownFlow exampleShared exampleFlows (exampleFinal exampleCollection).state 5 = 90 ∧
      strategyAllocation (exampleFinal exampleCollection).store 1 5 = some 140 ∧
      walletTotal (exampleFinal exampleCollection).store 1 5 = 1190 ∧ (exampleFinal exampleCollection).state.wallet 5 = 1140 := by
  decide

end LpTerminal.SharedWallet
