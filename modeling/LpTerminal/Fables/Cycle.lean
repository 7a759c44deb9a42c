import LpTerminal.Fables.Runtime
import Mathlib.Algebra.Ring.Int.Defs

/-!
The amounts a Fables cycle takes from the wallet's balance differences, and one job that runs through its
stages against a wallet that its mined transactions move.
-/

namespace LpTerminal.Fables

open Durable Store

structure Currencies where
  currency0 : Address
  currency1 : Address

def gasIn (currency : Address) (gas : ℤ) : ℤ :=
  if currency = zeroAddress then gas else 0

def received (key : Currencies) (baseline current : FablesAmounts) (gas : ℤ) : FablesAmounts where
  amount0 := current.amount0 - baseline.amount0 + gasIn key.currency0 gas
  amount1 := current.amount1 - baseline.amount1 + gasIn key.currency1 gas

def savedAmounts (value : Option FablesAmounts) (missing : FablesError) : Except FablesError FablesAmounts :=
  match value with
  | some amounts => .ok amounts
  | none => .error missing

def lastConfirmed (store : FablesStore) (id : JobId) (stage : FablesJobStage) : Option FablesJobTx :=
  ((fablesJobTransactions store id).filter fun tx => tx.stage = stage && tx.state = .confirmed).getLast?

section Stages

variable (key : Currencies) (store : FablesStore) (job : FablesJob) (current : FablesAmounts)

/-- `paid0` and `paid1` of `exitOldRange`. -/
def exitPaid (chain : Hash → FablesReceipt) : Except FablesError FablesAmounts := do
  let baseline ← savedAmounts job.context.baseline .contextBaseline
  match lastConfirmed store job.id .exit with
  | none => throw .exitReceiptMissing
  | some tx => return received key baseline current (chain tx.hash).facts.cost

/-- `exitOldRange` once its transaction is confirmed; `shares` is what the old range still holds. -/
def exitOldRange (chain : Hash → FablesReceipt) (shares : Nat) : Except FablesError Progress :=
  if shares ≠ 0 then throw .exitNotComplete
  else do
    let minimum ← savedAmounts job.context.exitMinimum .contextExitMinimum
    let paid ← exitPaid key store job current chain
    if paid.amount0 < minimum.amount0 ∨ paid.amount1 < minimum.amount1 then throw .exitUnderpaid
    else return { stage := some .claim }

/-- `realized` of `balanceAndPlan`. -/
def realizedAmounts : Except FablesError FablesAmounts := do
  let baseline ← savedAmounts job.context.baseline .contextBaseline
  if job.context.feeConversionDone then savedAmounts job.context.realized .contextRealized
  else
    let gas := (((fablesJobTransactions store job.id).filter (·.state = .confirmed)).map fun tx =>
      (tx.facts.map FablesReceiptFacts.cost).getD 0).sum
    return received key baseline current gas

/-- What the planning of `balanceAndPlan` comes to. -/
structure BalancePlan where
  convertsFees : Bool
  swaps : Bool

def principalAmounts (realized fees : FablesAmounts) : Except FablesError FablesAmounts :=
  if job.context.feeConversionDone then savedAmounts job.context.principal .contextPrincipal
  else .ok ⟨realized.amount0 - fees.amount0, realized.amount1 - fees.amount1⟩

def balanceAndPlan (plan : Except FablesError BalancePlan) : Except FablesError Progress := do
  let fees ← savedAmounts job.context.fees .contextFees
  let realized ← realizedAmounts key store job current
  if realized.amount0 < fees.amount0 ∨ realized.amount1 < fees.amount1 then throw .feeAccounting
  else do
    let principal ← principalAmounts job realized fees
    let plan ← plan
    let stage :=
      if plan.convertsFees ∧ ¬ job.context.feeConversionDone then .feeConversionApproval
      else if plan.swaps then .swapApproval
      else .depositApproval
    return { stage := some stage, context := some { job.context with principal := some principal, realized := some realized } }

end Stages

def FablesJobStage.sends : FablesJobStage → Bool
  | .precheck | .balance | .verify => false
  | _ => true

/-- Where `approveSwap`, `executeSwap`, `approveDeposit` and `executeDeposit` move their job: on when nothing is
left to send, back while the stage has no confirmed transaction. -/
def stageMoves (stage next : FablesJobStage) (confirmed : Bool) : Bool :=
  match stage, next with
  | .feeConversionApproval, .feeConversion | .swapApproval, .swap | .depositApproval, .deposit => true
  | .feeConversion, .feeConversionApproval | .swap, .swapApproval | .swap, .balance | .deposit, .depositApproval => !confirmed
  | .swap, .depositApproval | .deposit, .verify => confirmed
  | _, _ => false

/-- `mined` are the ordinals of the job's mined transactions. `lost` is the gas its reverted transactions had
burnt when `balanceAndPlan` last took the realized amounts from the wallet. -/
structure CycleState where
  runtime : Runtime
  wallet : FablesAmounts
  mined : List Nat := []
  lost : ℤ := 0

inductive StageTurn
  | precheck (checks : Except FablesError Unit)
  | quoteExit (minimum : FablesAmounts)
  | send (hash : Hash) (reads : Except FablesError Nat)
  | settleExit (shares : Nat)
  | settleFees (fees : Except FablesError FablesAmounts)
  | plan (plan : Except FablesError BalancePlan)
  | converted
  | move (next : FablesJobStage)

inductive CycleEvent
  | mine (ordinal : Nat)
  | turn (turn : StageTurn)
  | runtime (event : Event)

def answered (answer : Except FablesError Progress) : Event :=
  match answer with
  | .ok args => .progress args.stage args.context
  | .error code => .stageThrows code

section Step

variable (env : SignerEnv) (chain : Hash → FablesReceipt) (moved : Hash → FablesAmounts) (key : Currencies) (id : JobId)

def turnEvent (s : CycleState) (job : FablesJob) : StageTurn → Option Event
  | .precheck checks =>
    if job.stage = .precheck then
      some (answered (checks.map fun _ => { stage := some .exit, context := some { job.context with baseline := some s.wallet } }))
    else none
  | .quoteExit minimum =>
    if job.stage = .exit ∧ lastConfirmed s.runtime.store id .exit = none then
      some (answered (.ok { context := some { job.context with exitMinimum := some minimum } }))
    else none
  | .send hash reads =>
    -- only the approvals are sent more than once
    if job.stage.sends ∧ (job.stage.approval ∨ lastConfirmed s.runtime.store id job.stage = none) then
      some (.sign job.stage hash reads)
    else none
  | .settleExit shares =>
    if job.stage = .exit then some (answered (exitOldRange key s.runtime.store job s.wallet chain shares)) else none
  | .settleFees fees =>
    if job.stage = .claim then
      some (answered (fees.map fun fees => { stage := some .balance, context := some { job.context with fees := some fees } }))
    else none
  | .plan plan =>
    if job.stage = .balance then some (answered (balanceAndPlan key s.runtime.store job s.wallet plan)) else none
  | .converted =>
    if job.stage = .feeConversion ∧ lastConfirmed s.runtime.store id .feeConversion ≠ none then
      some (answered (.ok { stage := some .balance, context := some { job.context with feeConversionDone := true } }))
    else none
  | .move next =>
    if stageMoves job.stage next (lastConfirmed s.runtime.store id job.stage).isSome then
      some (answered (.ok { stage := some next }))
    else none

def permitted (s : CycleState) : Event → Bool
  | .takeJob other | .startRebroadcast other _ | .rebroadcastReturned other _ _ _ | .resume other => other = id
  | .readReceipt .deep =>
    match s.runtime.runner with
    | .reconciling _ (tx :: _) _ => s.mined.contains tx.ordinal
    | _ => true
  | .receiptReturned (.ok ()) _ =>
    match s.runtime.runner with
    | .waiting args => s.mined.contains args.ordinal
    | _ => true
  | .progress _ _ | .sign _ _ _ => false
  | _ => true

def payout (tx : FablesJobTx) : FablesAmounts :=
  if (chain tx.hash).status = .success ∧ ¬ tx.stage.approval then moved tx.hash else ⟨0, 0⟩

def CycleState.rows (s : CycleState) : Table FablesJobTx.key := s.runtime.store.transactions

def CycleState.total (s : CycleState) (amount : FablesJobTx → ℤ) : ℤ :=
  s.rows.total (fun tx => s.mined.contains tx.ordinal) amount

def CycleState.revertedGas (s : CycleState) : ℤ :=
  s.total fun tx => if (chain tx.hash).status = .reverted then ((chain tx.hash).facts.cost : ℤ) else 0

def FablesJobStage.pays : FablesJobStage → Bool
  | .exit | .claim => true
  | _ => false

def CycleState.paidOut (s : CycleState) : FablesAmounts where
  amount0 := s.total fun tx => if tx.stage.pays then (payout chain moved tx).amount0 else 0
  amount1 := s.total fun tx => if tx.stage.pays then (payout chain moved tx).amount1 else 0

def mine (s : CycleState) (ordinal : Nat) : CycleState :=
  match s.rows.get? (toLex (id, ordinal)) with
  | none => s
  | some tx =>
    if s.mined.contains ordinal then s
    else
      let out := payout chain moved tx
      let gas : ℤ := (chain tx.hash).facts.cost
      { s with
        mined := ordinal :: s.mined
        wallet := ⟨s.wallet.amount0 + out.amount0 - gasIn key.currency0 gas, s.wallet.amount1 + out.amount1 - gasIn key.currency1 gas⟩ }

def CycleState.working (s : CycleState) : Option FablesJob :=
  match s.runtime.runner with
  | .stepping _ => (s.runtime.store.jobs.get? id).filter (·.state = .running)
  | _ => none

/-- `lost` after the turn: a plan that takes the realized amounts from the wallet measures it again. -/
def turnLost (s : CycleState) (job : FablesJob) : StageTurn → ℤ
  | .plan _ => if job.context.feeConversionDone then s.lost else s.revertedGas chain
  | _ => s.lost

def request (s : CycleState) : CycleEvent → Option Event
  | .mine _ => none
  | .turn turn => (s.working id).bind fun job => turnEvent chain key id s job turn
  | .runtime event => if permitted id s event then some event else none

def cycleStep (s : CycleState) (event : CycleEvent) : CycleState :=
  match event with
  | .mine ordinal => mine chain moved key id s ordinal
  | .turn turn =>
    match request chain key id s event with
    | none => s
    | some asked =>
      { s with
        runtime := step env chain s.runtime asked
        lost := ((s.working id).map fun job => turnLost chain s job turn).getD s.lost }
  | .runtime _ =>
    match request chain key id s event with
    | none => s
    | some asked => { s with runtime := step env chain s.runtime asked }

end Step

end LpTerminal.Fables
