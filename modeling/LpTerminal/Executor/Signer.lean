import LpTerminal.Lib.Durable
import LpTerminal.Lib.Fallible
import LpTerminal.Store.Journal

/-!
`sendTracked`, the only sender of the executor: preflight reads, the first durable mark, the fee loop
that signs and broadcasts, and the marks of the receipt.
-/

namespace LpTerminal.Signer

open Fallible Store

structure SafeTx where
  target : Address
  data : Calldata
  value : Option Nat

structure SignedTransaction where
  signer : Address
  chainId : Nat
  target : Address
  data : Calldata
  value : Nat
  nonce : Nat
  gasPrice : Nat
  gas : Nat
  deriving DecidableEq, Repr

def SignedTransaction.onChain (tx : SignedTransaction) : Transaction where
  sender := tx.signer
  target := some tx.target
  input := tx.data
  nonce := tx.nonce
  value := tx.value

/-- A provider's error with the verdicts of `isTransientRpcFailure` and `isRetryableFeeRejection`. -/
structure ProviderError where
  code : ErrorCode
  transient : Bool
  feeRejection : Bool

structure Network where
  chainId : Nat
  wrappedNative : Address
  rpcRetryCount : Nat

structure ExecutionLimits where
  owner : Address
  quoteToken : Address
  maxGasPriceWei : Option Nat
  maxGasQuotePerTx : Option Nat

structure SendArgs where
  jobId : JobId
  stepIndex : Nat
  txIndex : Option Nat
  tx : SafeTx

/-- The answers one call gets: of every retried read by its attempt, of the fee loop by its round. -/
structure SendReplies where
  executorPaused : Bool
  account : Address
  chainId : Nat → Except ProviderError Nat
  pendingCount : Nat → Except ProviderError Nat
  estimateGas : Nat → Except ProviderError Nat
  fees : Nat → Nat → Except ProviderError (Nat × Option Nat)
  sendRaw : Nat → Nat → Except ProviderError Hash
  visible : Nat → Nat → Bool
  receiptPolls : List (Except ProviderError Receipt)
  gasValuation : Except ErrorCode Unit

/-- The durable tables, and every transaction the executor's keys have ever signed. -/
structure State where
  steps : List JobStep
  journal : Journal
  signed : List SignedTransaction

def retryPreflightRpc {α : Type} (read : Nat → Except ProviderError α) : Except ErrorCode α :=
  match read 0 with
  | .ok value => .ok value
  | .error _ =>
    match read 1 with
    | .ok value => .ok value
    | .error _ =>
      match read 2 with
      | .ok value => .ok value
      | .error last => .error last.code

def bufferedLegacyGasPrice (suggested : Nat) (baseFee previous : Option Nat) : Nat :=
  let reference := max (max suggested (baseFee.getD 0)) (previous.getD 0)
  (reference * 125 + 99) / 100

def waitForReceiptTolerant (attempt : Nat) : List (Except ProviderError Receipt) → Except ErrorCode Receipt
  | [] => .error .transport
  | .ok receipt :: _ => .ok receipt
  | .error error :: rest =>
    if !error.transient then .error error.code
    else if attempt + 1 > 8 then .error error.code
    else waitForReceiptTolerant (attempt + 1) rest

def attemptBroadcast (replies : SendReplies) (round : Nat) (localHash : Hash) (attempt : Nat) :
    Except ProviderError Hash :=
  let failed (error : ProviderError) : Except ProviderError Hash :=
    if replies.visible round attempt then .ok localHash else .error error
  match replies.sendRaw round attempt with
  | .ok returned =>
    if returned = localHash then .ok localHash
    else failed { code := .broadcastHash, transient := false, feeRejection := false }
  | .error error => failed error

/-- The sends of one round from `attempt` on; `left` more may follow a transient failure. -/
def broadcastExact (replies : SendReplies) (round : Nat) (localHash : Hash) (attempt : Nat) :
    (left : Nat) → Except ProviderError Hash
  | 0 => attemptBroadcast replies round localHash attempt
  | left + 1 =>
    match attemptBroadcast replies round localHash attempt with
    | .ok hash => .ok hash
    | .error error =>
      if !error.transient then .error error else broadcastExact replies round localHash (attempt + 1) left

section
variable (network : Network) (keccak256 : Calldata → Hash) (transactionHash : SignedTransaction → Hash)
variable (limits : JobId → ExecutionLimits)

def estimateBuffer (estimatedGas : Nat) : Nat :=
  (estimatedGas * 120 + 99) / 100

def preflight (args : SendArgs) (replies : SendReplies) : Except ErrorCode (Nat × Nat) := do
  demand (replies.executorPaused = false) .executorPaused
  demand (replies.account = (limits args.jobId).owner) .owner
  let chainId ← retryPreflightRpc replies.chainId
  demand (chainId = network.chainId) .chain
  let nonce ← retryPreflightRpc replies.pendingCount
  let estimatedGas ← retryPreflightRpc replies.estimateGas
  return (nonce, estimateBuffer estimatedGas)

def checkPrice (limit : ExecutionLimits) (gas gasPrice : Nat) : Except ErrorCode Unit := do
  match limit.maxGasPriceWei with
  | none => pure ()
  | some maxGasPriceWei => demand (gasPrice ≤ maxGasPriceWei) .gasPriceLimit
  match limit.maxGasQuotePerTx with
  | none => pure ()
  | some maxGasQuotePerTx =>
    demand (limit.quoteToken = network.wrappedNative ∨ limit.quoteToken = zeroAddress) .limitPrice
    demand (gas * gasPrice ≤ maxGasQuotePerTx) .gasLimit

def gasPriceFor (args : SendArgs) (replies : SendReplies) (gas round : Nat) (previous : Option Nat) :
    Except ErrorCode Nat := do
  let (suggested, baseFee) ← retryPreflightRpc (replies.fees round)
  let gasPrice := bufferedLegacyGasPrice suggested baseFee previous
  checkPrice network (limits args.jobId) gas gasPrice
  return gasPrice

def signTransaction (args : SendArgs) (replies : SendReplies) (nonce gas gasPrice : Nat) : SignedTransaction where
  signer := replies.account
  chainId := network.chainId
  target := args.tx.target
  data := args.tx.data
  value := args.tx.value.getD 0
  nonce := nonce
  gasPrice := gasPrice
  gas := gas

def SendArgs.slot (args : SendArgs) : SlotKey :=
  slotKey args.jobId args.stepIndex (args.txIndex.getD 0)

def slotMark (args : SendArgs) (state : TransactionState) (nonce : Option Nat) (txHash : Option Hash) :
    TransactionMark where
  jobId := args.jobId
  stepIndex := args.stepIndex
  txIndex := args.txIndex.getD 0
  state := state
  nonce := nonce
  txHash := txHash
  txTo := args.tx.target
  calldataHash := keccak256 args.tx.data

def stepMark (args : SendArgs) (state : StepState) (nonce : Option Nat) (txHash : Option Hash) : StepMark where
  jobId := args.jobId
  index := args.stepIndex
  state := state
  nonce := nonce
  txHash := txHash
  txTo := some args.tx.target
  calldataHash := some (keccak256 args.tx.data)

def noteStep (mark : StepMark) : Durable ErrorCode State Unit :=
  Durable.write fun state => { state with steps := markStep state.steps mark }

def noteTransaction (mark : TransactionMark) : Durable ErrorCode State Unit :=
  Durable.tryWrite fun state => (markTransaction state.journal mark).map fun journal => { state with journal }

def signRound (args : SendArgs) (replies : SendReplies) (nonce gas round : Nat) (previous : Option Nat) :
    Durable ErrorCode State (Nat × Hash) := do
  let gasPrice ← Durable.reply (gasPriceFor network limits args replies gas round previous)
  let signed := signTransaction network args replies nonce gas gasPrice
  let localHash := transactionHash signed
  Durable.write fun state => { state with signed := signed :: state.signed }
  noteStep (stepMark keccak256 args .sending (some nonce) (some localHash))
  noteTransaction (slotMark keccak256 args .sending (some nonce) (some localHash))
  return (gasPrice, localHash)

/-- The fee loop from `round` on: `left` more rounds may follow a rejected fee. -/
def feeLoop (args : SendArgs) (replies : SendReplies) (nonce gas round : Nat) (previous : Option Nat) (left : Nat) :
    Durable ErrorCode State Hash := do
  let (gasPrice, localHash) ← signRound network keccak256 transactionHash limits args replies nonce gas round previous
  match broadcastExact replies round localHash 0 network.rpcRetryCount with
  | .ok hash => return hash
  | .error error =>
    match left with
    | 0 => Durable.fail error.code
    | left + 1 =>
      if !error.feeRejection then Durable.fail error.code
      else feeLoop args replies nonce gas (round + 1) (some gasPrice) left

def settle (args : SendArgs) (replies : SendReplies) (hash : Hash) (receipt : Receipt) :
    Durable ErrorCode State Receipt :=
  if receipt.status ≠ .success then do
    noteStep { jobId := args.jobId, index := args.stepIndex, state := .failed, txHash := some hash
               blockNumber := some receipt.blockNumber, errorCode := some .txReverted }
    noteTransaction { slotMark keccak256 args .failed none (some hash) with
      blockNumber := some receipt.blockNumber, errorCode := some .txReverted }
    Durable.fail .txReverted
  else do
    noteStep { jobId := args.jobId, index := args.stepIndex, state := .confirmed, txHash := some hash
               blockNumber := some receipt.blockNumber, gasUsed := some receipt.gasUsed }
    noteTransaction { slotMark keccak256 args .confirmed none (some hash) with
      blockNumber := some receipt.blockNumber, gasUsed := some receipt.gasUsed }
    Durable.reply replies.gasValuation
    return receipt

def sendTracked (args : SendArgs) (replies : SendReplies) : Durable ErrorCode State Receipt := do
  let (nonce, gas) ← Durable.reply (preflight network limits args replies)
  noteStep (stepMark keccak256 args .sending (some nonce) none)
  noteTransaction (slotMark keccak256 args .sending (some nonce) none)
  let hash ← feeLoop network keccak256 transactionHash limits args replies nonce gas 0 none 2
  noteStep (stepMark keccak256 args .sent (some nonce) (some hash))
  noteTransaction (slotMark keccak256 args .sent (some nonce) (some hash))
  let receipt ← Durable.reply (waitForReceiptTolerant 0 replies.receiptPolls)
  settle keccak256 args replies hash receipt

end

end LpTerminal.Signer
