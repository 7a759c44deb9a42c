import Mathlib.Data.List.Basic

/-!
Chain facts as the executor reads them: transactions, receipts with their decoded logs, and the
errors the executor raises.
-/

namespace LpTerminal

abbrev Address := Nat
abbrev Hash := Nat
abbrev Calldata := List UInt8
abbrev JobId := Nat

def zeroAddress : Address := 0

inductive ErrorCode
  | allocationChanged | allocationMismatch | broadcast | broadcastHash | capitalAmount | chain | config | dailyLimit | executorPaused
  | feeTaxAmount | gasLimit | gasPriceLimit | jobMissing | limitPrice | mintTokenId | nativeProfitRecovery | noRetainedProfit | nonce
  | owner | positionState | priceMoved | profitAccounting | profitContext | profitJob | recoveryContext | recoveryJob | recoveryManual
  | recoveryPending | slippage | strategyBusy | strategyMissing | swapAccounting | swapImpact | tokenRole | transport | txAbsent
  | txReverted | uniqueConstraint | unsupportedToken | wallet | walletFablesJob | walletRecovery
  deriving DecidableEq, Repr

/-- A log as the ABIs of the executor decode it; an NFT's `Transfer` is no ERC-20 `Transfer`. -/
inductive LogEvent
  | transfer (sender recipient : Address) (value : Nat)
  | positionTransfer (sender recipient : Address) (tokenId : Nat)
  | decreaseLiquidity (tokenId amount0 amount1 : Nat)
  | collect (tokenId amount0 amount1 : Nat)
  | increaseLiquidity (tokenId amount0 amount1 : Nat)
  | other

structure Log where
  address : Address
  event : LogEvent

inductive ReceiptStatus
  | success | reverted
  deriving DecidableEq, Repr

structure Receipt where
  transactionHash : Hash
  status : ReceiptStatus
  blockNumber : Nat
  gasUsed : Nat
  effectiveGasPrice : Nat
  logs : List Log

structure Transaction where
  sender : Address
  target : Option Address
  input : Calldata
  nonce : Nat
  value : Nat

def receiptGas (receipt : Receipt) : Nat :=
  receipt.gasUsed * receipt.effectiveGasPrice

end LpTerminal
