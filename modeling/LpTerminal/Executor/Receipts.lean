import LpTerminal.Executor.Chain
import Mathlib.Algebra.Order.Ring.Int
import Mathlib.Algebra.BigOperators.Group.List.Basic

/-!
Amounts read off receipts and off wallet balances.
-/

namespace LpTerminal.Receipts

def logDelta (token owner : Address) (log : Log) : ℤ :=
  match log.event with
  | .transfer sender recipient value =>
    if log.address = token then (if sender = owner then -(value : ℤ) else 0) + (if recipient = owner then (value : ℤ) else 0)
    else 0
  | _ => 0

def receiptTokenDelta (receipt : Receipt) (token owner : Address) : ℤ :=
  (receipt.logs.map (logDelta token owner)).sum

structure LiquidityFlows where
  principal0 : ℤ := 0
  principal1 : ℤ := 0
  collected0 : ℤ := 0
  collected1 : ℤ := 0
  mintedTokenId : Option Nat := none
  minted0 : ℤ := 0
  minted1 : ℤ := 0

/-- A log of the position manager; `tokenId` 0 stands for any minted position. -/
def addLiquidityFlow (positionManager : Address) (tokenId : Nat) (flows : LiquidityFlows) (log : Log) : LiquidityFlows :=
  if log.address ≠ positionManager then flows
  else
    match log.event with
    | .decreaseLiquidity id amount0 amount1 =>
      if id = tokenId then
        { flows with principal0 := flows.principal0 + amount0, principal1 := flows.principal1 + amount1 }
      else flows
    | .collect id amount0 amount1 =>
      if id = tokenId then
        { flows with collected0 := flows.collected0 + amount0, collected1 := flows.collected1 + amount1 }
      else flows
    | .increaseLiquidity id amount0 amount1 =>
      if tokenId = 0 ∨ id = tokenId then
        { flows with
          mintedTokenId := some id, minted0 := flows.minted0 + amount0, minted1 := flows.minted1 + amount1 }
      else flows
    | _ => flows

def receiptLiquidityFlows (receipt : Receipt) (positionManager : Address) (tokenId : Nat) : LiquidityFlows :=
  receipt.logs.foldl (addLiquidityFlow positionManager tokenId) {}

def receiptV4MintedTokenId (receipt : Receipt) (positionManager owner : Address) : Option Nat :=
  receipt.logs.findSome? fun log =>
    match log.event with
    | .positionTransfer sender recipient tokenId =>
      if log.address = positionManager ∧ sender = zeroAddress ∧ recipient = owner then some tokenId else none
    | _ => none

def receiptV4TokenFlow (receipt : Receipt) (token owner : Address) : Option ℤ :=
  if token = zeroAddress then none else some (receiptTokenDelta receipt token owner)

def receivedByWallet (before after : ℤ) (receipt : Receipt) (token : Address) : ℤ :=
  after - before + (if token = zeroAddress then (receiptGas receipt : ℤ) else 0)

def spentByWallet (before after : ℤ) (receipt : Receipt) (token : Address) : ℤ :=
  before - after - (if token = zeroAddress then (receiptGas receipt : ℤ) else 0)

def v4PrincipalFeeSplit (collected owed : ℤ) : ℤ × ℤ :=
  let fee := if owed < collected then owed else collected
  (collected - fee, fee)

/-- What a chain that can be relied on says of the transactions of one wallet: the receipt of each, and what it
moved into the wallet, its gas apart. Of ERC-20 tokens the logs show it, and a reverted transaction moves nothing. -/
structure ChainFacts (owner : Address) where
  receiptOf : Hash → Receipt
  moved : Hash → Address → ℤ
  named : ∀ hash, (receiptOf hash).transactionHash = hash
  logged : ∀ hash token, token ≠ zeroAddress → moved hash token = receiptTokenDelta (receiptOf hash) token owner
  undone : ∀ hash, (receiptOf hash).status = .reverted → ∀ token, moved hash token = 0

def ChainFacts.felt {owner : Address} (chain : ChainFacts owner) (hash : Hash) (token : Address) : ℤ :=
  chain.moved hash token - (if token = zeroAddress then (receiptGas (chain.receiptOf hash) : ℤ) else 0)

theorem receivedByWallet_felt {owner : Address} (chain : ChainFacts owner) (hash : Hash) (token : Address) (before : ℤ) :
    receivedByWallet before (before + chain.felt hash token) (chain.receiptOf hash) token = chain.moved hash token := by
  unfold receivedByWallet ChainFacts.felt
  omega

theorem spentByWallet_felt {owner : Address} (chain : ChainFacts owner) (hash : Hash) (token : Address) (before : ℤ) :
    spentByWallet before (before + chain.felt hash token) (chain.receiptOf hash) token = -chain.moved hash token := by
  unfold spentByWallet ChainFacts.felt
  omega

def ChainFacts.ofEntries (owner : Address) (status : Hash → ReceiptStatus) (gas : Hash → Nat) (logs : Hash → List Log)
    (native : Hash → ℤ) : ChainFacts owner :=
  let receiptOf (hash : Hash) : Receipt :=
    { transactionHash := hash, status := status hash, blockNumber := hash, gasUsed := gas hash, effectiveGasPrice := 1
      logs := if status hash = .success then logs hash else [] }
  { receiptOf
    moved := fun hash token =>
      if token = zeroAddress then if status hash = .success then native hash else 0
      else receiptTokenDelta (receiptOf hash) token owner
    named := fun _ => rfl
    logged := fun _ _ erc20 => if_neg erc20
    undone := by
      intro hash reverted token
      have failed : status hash ≠ .success := by
        change status hash = .reverted at reverted
        rw [reverted]
        decide
      by_cases isNative : token = zeroAddress
      · simp only [isNative, if_true, if_neg failed]
      · simp only [if_neg isNative, receiptOf, if_neg failed, receiptTokenDelta, List.map_nil, List.sum_nil] }

end LpTerminal.Receipts
