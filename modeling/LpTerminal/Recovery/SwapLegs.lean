import LpTerminal.Recovery.SwapJob

/-!
One swap of a recovered hold-quote or fee-collection job: a slot that already confirmed it is only
checked again, else it is sent in the slot of its record or in a fresh one.
-/

namespace LpTerminal.SwapLegs

open Durable FeeTax Rebalance Receipts Store SwapJob

/-- A swap of the job: which records are its own, the intent a confirmed record is checked by, and whether its
wallet deltas are corrected by the gas. -/
structure SwapLeg where
  intent : SwapIntent
  reuses : SwapPlanRecord → Bool
  checks : SwapPlanRecord → SwapIntent
  gasAdjusted : Bool

structure LegReply where
  quote : Except ErrorCode Nat
  approvals : Except ErrorCode (List Send)
  prepared : Except ErrorCode PreparedSwap
  send : Send
  drift : Address → ℤ
  revokes : Except ErrorCode (List Send)

def idleSend : Send where
  txTo := 0
  calldataHash := 0
  nonce := 0
  outcome := .refused .transport

def idleReply : LegReply where
  quote := .error .transport
  approvals := .ok []
  prepared := .error .transport
  send := idleSend
  drift _ := 0
  revokes := .ok []

structure LegResult where
  txIndex : Nat
  quotedOut : ℤ
  spent : ℤ
  gained : ℤ
  nextSwapTx : Nat

def taxLeg (intent : SwapIntent) (gasAdjusted : Bool) : SwapLeg where
  intent := intent
  reuses record := record.purpose = .feeTax && record.tokenIn = intent.tokenIn && record.amountIn = intent.amountIn
  checks _ := intent
  gasAdjusted := gasAdjusted

section
variable (job : Job) (chain : ChainFacts job.owner)

def SwapLeg.record (leg : SwapLeg) (state : JobState) : Option SwapPlanRecord :=
  state.swapPlan.rows.find? leg.reuses

def SwapLeg.slot (leg : SwapLeg) (state : JobState) (nextSwapTx : Nat) : Nat :=
  match leg.record state with
  | some record => record.txIndex
  | none => nextSwapTx

def SwapLeg.advance (leg : SwapLeg) (state : JobState) (nextSwapTx : Nat) : Nat :=
  match leg.record state with
  | some _ => nextSwapTx
  | none => nextSwapTx + 1

def SwapLeg.confirmed (leg : SwapLeg) (state : JobState) : Option (SwapPlanRecord × Receipt) :=
  match leg.record state with
  | none => none
  | some record => (confirmedSwap? job chain state record.txIndex).map (record, ·)

def spentOf (leg : SwapLeg) (before after : JobState) (receipt : Receipt) : ℤ :=
  let token := leg.intent.tokenIn
  if leg.gasAdjusted then spentByWallet (before.wallet token) (after.wallet token) receipt token
  else before.wallet token - after.wallet token

def gainedOf (leg : SwapLeg) (before after : JobState) (receipt : Receipt) : ℤ :=
  let token := leg.intent.tokenOut
  if leg.gasAdjusted then receivedByWallet (before.wallet token) (after.wallet token) receipt token
  else after.wallet token - before.wallet token

def recheckLeg (leg : SwapLeg) (nextSwapTx : Nat) (record : SwapPlanRecord) (receipt : Receipt) :
    Durable ErrorCode JobState LegResult := do
  let spent := -receiptTokenDelta receipt leg.intent.tokenIn job.owner
  let gained := receiptTokenDelta receipt leg.intent.tokenOut job.owner
  let _ ← reply (allocateSwapExecution (leg.checks record) spent gained (storedMinOut job record))
  return { txIndex := record.txIndex, quotedOut := record.quotedOut, spent, gained, nextSwapTx }

def executeLeg (leg : SwapLeg) (txIndex nextSwapTx : Nat) (reply : LegReply) : Durable ErrorCode JobState LegResult := do
  allowances job chain reply.approvals
  let prepared ← Durable.reply reply.prepared
  let before ← read
  let receipt ← sendRecoverySwap job chain txIndex leg.intent prepared reply.send
  driftWallet reply.drift
  let after ← read
  let spent := spentOf leg before after receipt
  let gained := gainedOf leg before after receipt
  let _ ← Durable.reply (allocateSwapExecution leg.intent spent gained prepared.minOut)
  allowances job chain reply.revokes
  return { txIndex, quotedOut := prepared.amountOut, spent, gained, nextSwapTx }

def runLeg (leg : SwapLeg) (nextSwapTx : Nat) (reply : LegReply) : Durable ErrorCode JobState LegResult := do
  let state ← read
  match leg.confirmed job chain state with
  | some (record, receipt) => recheckLeg job leg nextSwapTx record receipt
  | none => do
    let quotedOut ← Durable.reply reply.quote
    let txIndex := leg.slot state nextSwapTx
    recordSwap (planRecord txIndex { leg.intent with quotedOut })
    executeLeg job chain leg txIndex (leg.advance state nextSwapTx) reply

def runTaxLegs (gasAdjusted : Bool) (nextSwapTx : Nat) : List SwapIntent → List LegReply →
    Durable ErrorCode JobState (List LegResult × Nat)
  | [], _ => return ([], nextSwapTx)
  | _ :: _, [] => fail .transport
  | intent :: rest, reply :: replies => do
    let result ← runLeg job chain (taxLeg intent gasAdjusted) nextSwapTx reply
    let (later, nextSwapTx) ← runTaxLegs gasAdjusted result.nextSwapTx rest replies
    return (result :: later, nextSwapTx)

end

section
variable {job : Job} {chain : ChainFacts job.owner}

variable {leg : SwapLeg}

theorem SwapLeg.confirmed_kept {start state : JobState} {steps : Nat → Prop}
    (kept : ConfirmedKept job steps start state) (swaps : steps swapStep) (plan : state.swapPlan = start.swapPlan) {found : SwapPlanRecord × Receipt}
    (confirmed : leg.confirmed job chain start = some found) : leg.confirmed job chain state = some found := by
  unfold SwapLeg.confirmed SwapLeg.record at confirmed ⊢
  rw [plan]
  cases read : start.swapPlan.rows.find? leg.reuses with
  | none => rw [read] at confirmed; cases confirmed
  | some record =>
    rw [read] at confirmed
    obtain ⟨receipt, was, same⟩ := Option.map_eq_some_iff.mp confirmed
    exact Option.map_eq_some_iff.mpr ⟨receipt, confirmedSwap?_kept kept swaps was, same⟩

variable {record : SwapPlanRecord} {receipt : Receipt}

theorem SwapLeg.confirmed_slot {state : JobState}
    (confirmed : leg.confirmed job chain state = some (record, receipt)) :
    leg.record state = some record ∧ confirmedSwap? job chain state record.txIndex = some receipt := by
  unfold SwapLeg.confirmed at confirmed
  cases read : leg.record state with
  | none => rw [read] at confirmed; cases confirmed
  | some found =>
    rw [read] at confirmed
    obtain ⟨_, was, same⟩ := Option.map_eq_some_iff.mp confirmed
    cases same
    exact ⟨rfl, was⟩

theorem runLeg_confirmed {nextSwapTx : Nat} (answer : LegReply) {state : JobState}
    (confirmed : leg.confirmed job chain state = some (record, receipt)) :
    (runLeg job chain leg nextSwapTx answer).run state = (recheckLeg job leg nextSwapTx record receipt).run state := by
  unfold runLeg
  rw [bind_run]
  change (match leg.confirmed job chain state with
    | some (record, receipt) => recheckLeg job leg nextSwapTx record receipt
    | none => _).run state = _
  rw [confirmed]

theorem recheckLeg_run {nextSwapTx : Nat} {state final : JobState}
    {outcome : Except ErrorCode LegResult} (ran : (recheckLeg job leg nextSwapTx record receipt).run state = (outcome, final)) :
    final = state ∧ ∀ result, outcome = .ok result →
      result.gained = receiptTokenDelta receipt leg.intent.tokenOut job.owner := by
  unfold recheckLeg at ran
  rw [bind_run] at ran
  unfold Durable.reply at ran
  cases allocated : allocateSwapExecution (leg.checks record) (-receiptTokenDelta receipt leg.intent.tokenIn job.owner)
      (receiptTokenDelta receipt leg.intent.tokenOut job.owner) (storedMinOut job record) with
  | error e =>
    rw [allocated] at ran
    cases ran
    exact ⟨rfl, fun _ impossible => absurd impossible (by simp)⟩
  | ok execution =>
    rw [allocated] at ran
    cases ran
    refine ⟨rfl, fun result returned => ?_⟩
    cases returned
    rfl

theorem recheckLeg_accepts (nextSwapTx : Nat) (state : JobState)
    (accepted : Accepts (leg.checks record) (-receiptTokenDelta receipt leg.intent.tokenIn job.owner)
      (receiptTokenDelta receipt leg.intent.tokenOut job.owner) (storedMinOut job record)) :
    ∃ result, (recheckLeg job leg nextSwapTx record receipt).run state = (.ok result, state) := by
  have allocated := allocateSwapExecution_ok.mpr ⟨accepted, rfl⟩
  unfold recheckLeg
  rw [run_bind_ok (run_reply_ok allocated state)]
  exact ⟨_, rfl⟩

theorem run_allowances_none (state : JobState) : (allowances job chain (.ok [])).run state = (.ok (), state) := rfl

end

/-- What the precheck wrote down before the first transaction, with the provenance of prior balances. -/
structure PrecheckContext where
  baseline : Address → ℤ
  prior : Address → ℤ
  priorPrincipal : Address → Option ℤ
  priorHeld : Address → Option ℤ
  priorProfit : Address → Option ℤ

def PrecheckContext.held (context : PrecheckContext) (token : Address) : ℤ :=
  match context.priorPrincipal token, context.priorHeld token, context.priorProfit token with
  | none, none, none => context.prior token
  | _, held, _ => held.getD 0

def PrecheckContext.principal (context : PrecheckContext) (token : Address) : ℤ :=
  (context.priorPrincipal token).getD 0

def PrecheckContext.profit (context : PrecheckContext) (token : Address) : ℤ :=
  (context.priorProfit token).getD 0

/-- The wallet covers the strategy's next allocation of a token beside `others`, those of its other strategies. -/
def WalletCovers (others balance next : ℤ) : Prop :=
  0 ≤ others + next ∧ others + next ≤ balance

instance {others balance next : ℤ} : Decidable (WalletCovers others balance next) :=
  inferInstanceAs (Decidable (_ ∧ _))

end LpTerminal.SwapLegs
