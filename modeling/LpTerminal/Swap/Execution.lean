import LpTerminal.Swap.DirectTransaction
import LpTerminal.Lib.Durable

/-!
From a quote to a swap that is handed to the wallet. Every await may bring account changes of the
wallet; between two awaits the program runs alone.
-/

namespace LpTerminal.Swap

open Solver (Viem QuoteRequest QuoteTransaction SolverQuote HexString NATIVE lower expectedMinimum isUnsignedInteger safeNat
  fetchSolverQuote netAfterFee)
open Fallible Durable

inductive Calldata where
  | direct (data : DirectData)
  | solver (data : String)
  deriving DecidableEq

structure Trade where
  /-- The `to` of the transaction. -/
  target : String
  data : Calldata
  value : ℤ
  deriving DecidableEq

def DirectTransaction.trade (tx : DirectTransaction) : Trade := ⟨tx.target, .direct tx.data, tx.value⟩

def solverTrade (tx : QuoteTransaction) : Trade := ⟨tx.target, .solver tx.data, tx.value⟩

/-- What `sendTransaction` is called with. -/
structure Request where
  account : String
  trade : Trade
  gas : Option ℤ
  deriving DecidableEq

/-- An allowance that was read, or was granted by a confirmed approval. -/
structure Grant where
  token : String
  owner : String
  spender : String
  amount : ℤ
  deriving DecidableEq

/-- An allowance of Permit2 for an operator. -/
structure Permit where
  permit2 : String
  grant : Grant
  deriving DecidableEq

inductive Event where
  /-- The sender check passed. -/
  | checked
  | switched (account : Option String)
  | prepared (trade : Option Trade)
  | allowance (grant : Grant)
  | permit (permit : Permit)
  /-- The trade is handed to the wallet while `active` is its account. -/
  | handed (active : Option String) (request : Request)
  deriving DecidableEq

structure Session where
  awaits : ℕ
  active : Option String
  log : List Event

structure Transfer where
  token : String
  recipient : String
  value : ℕ

structure Receipt where
  success : Bool
  transfers : List Transfer

inductive ReplacementReason where
  | repriced
  | cancelled
  | replaced
  deriving DecidableEq

structure World where
  /-- The account changes that arrive during the await. -/
  switches : ℕ → List (Option String)
  /-- The gross output of the route, unless its quoter reverts. -/
  quoted : ℕ → Result (Option ℕ)
  solver : ℕ → QuoteRequest → Solver.Response
  allowance : ℕ → Result ℤ
  /-- The amount and the expiry of an allowance of Permit2. -/
  permit2 : ℕ → Result (ℤ × ℤ)
  ownerOf : ℕ → Result String
  prev : ℕ → Result String
  estimateGas : ℕ → Result ℤ
  /-- The receipt of a transaction that the wallet signed. -/
  mined : ℕ → Result (Option ReplacementReason × Receipt)
  /-- Seconds. -/
  now : ℕ → ℤ

structure Build (δ : Type) where
  viem : Viem
  venues : Venues
  chain : Solver.Chain
  swapFee : Result Fee
  directRouteLabel : DirectRoute → String
  parseDisplay : ℕ → Option Solver.Json → Solver.Result δ

abbrev Program := Durable Failure Session

variable {δ : Type}

def record (event : Event) : Program Unit :=
  write fun session => { session with log := session.log ++ [event] }

def Session.resumed (world : World) (session : Session) : Session where
  awaits := session.awaits + 1
  active := (world.switches session.awaits).getLast?.getD session.active
  log := session.log ++ (world.switches session.awaits).map .switched

def await {α : Type} (world : World) (answer : ℕ → Result α) : Program α := do
  let session ← read
  write fun _ => session.resumed world
  reply (answer session.awaits)

def activeAccountMatches (active : Option String) (expected : String) : Bool :=
  active.any fun account => account ≠ "" && lower account = lower expected

def requireSender (sender : String) : Program Unit := do
  let session ← read
  if activeAccountMatches session.active sender then record .checked
  else fail (.message "tx.accountChanged")

def step (world : World) (send : Program Unit) : Program (Option Receipt) :=
  rescue (fun _ => some none) do
    send
    let (replacement, receipt) ← await world world.mined
    return if replacement.all (· = .repriced) ∧ receipt.success then some receipt else none

def receivedOf (receipt : Receipt) (token recipient : String) : ℤ :=
  ((receipt.transfers.filter fun transfer => lower transfer.token = lower token && lower transfer.recipient = lower recipient).map
    (fun transfer => (transfer.value : ℤ))).sum

inductive AllowanceResult where
  | sufficient
  | approved

def ensureAllowance (world : World) (token owner spender : String) (amount : ℤ) : Program (Option AllowanceResult) := do
  let current ← await world world.allowance
  if amount ≤ current then do
    record (.allowance ⟨token, owner, spender, current⟩)
    return some .sufficient
  else
    match ← step world (pure ()) with
    | none => return none
    | some _ => do
      record (.allowance ⟨token, owner, spender, amount⟩)
      return some .approved

def ensurePermit2Allowance (world : World) (permit2 token owner operator : String) (amount : ℤ) :
    Program (Option AllowanceResult) := do
  let (current, expiration) ← await world world.permit2
  let session ← read
  if amount ≤ current ∧ world.now session.awaits < expiration then do
    record (.permit ⟨permit2, token, owner, operator, current⟩)
    return some .sufficient
  else do
    reply (require (amount ≤ 2 ^ 160 - 1) "Permit2 allowance exceeds uint160")
    match ← step world (pure ()) with
    | none => return none
    | some _ => do
      record (.permit ⟨permit2, token, owner, operator, amount⟩)
      return some .approved

inductive Output where
  | native
  | erc20 (token : String) (amount : ℤ)

structure ConfirmedSwap where
  receipt : Receipt
  output : Output

def hand (request : Request) : Program Unit := do
  let session ← read
  record (.handed session.active request)

/-- `getAddress(current) === getAddress(approved)`; an address that viem refuses throws as well. -/
def unchanged (viem : Viem) (current : Option String) (approved : String) : Bool :=
  match current.bind viem.getAddress, viem.getAddress approved with
  | some left, some right => left = right
  | _, _ => false

def received (receipt : Receipt) (token recipient : String) (minimum : ℤ) : Result ConfirmedSwap :=
  let amount := receivedOf receipt token recipient
  if amount < minimum then .error (.message "swap.receivedBelowMinimum") else .ok ⟨receipt, .erc20 token amount⟩

structure SwapExecutionIntent where
  route : DirectRoute
  tokenIn : String
  tokenOut : String
  amountIn : ℤ
  minimumAmountOut : ℤ
  sender : String
  recipient : String
  fee : Option Fee

def quotable (build : Build δ) (args : SwapExecutionIntent) (feeBps : ℤ) : Result Unit := do
  require (0 < args.amountIn) "Swap amount must be positive"
  let tokenIn ← erc20Of build.viem build.venues args.tokenIn
  let tokenOut ← erc20Of build.viem build.venues args.tokenOut
  require (lower tokenIn ≠ lower tokenOut) "Swap tokens must differ"
  assertFeeBps feeBps
  assertRoute build.venues args.route

def quoteDirectRoute (build : Build δ) (world : World) (args : SwapExecutionIntent) (feeBps : ℤ) : Program ℤ := do
  reply (quotable build args feeBps)
  match (← await world world.quoted).filter (· ≠ 0) with
  | none => fail (.message (build.directRouteLabel args.route ++ " route is no longer quotable"))
  | some grossAmountOut => return netAfterFee feeBps grossAmountOut

def SwapExecutionIntent.directArgs (args : SwapExecutionIntent) (fee : Fee) (deadline : ℤ) : DirectArgs where
  tokenIn := args.tokenIn
  tokenOut := args.tokenOut
  amountIn := args.amountIn
  minimumAmountOut := args.minimumAmountOut
  recipient := args.recipient
  deadline
  route := args.route
  fee

def prepareSwap (build : Build δ) (world : World) (args : SwapExecutionIntent) : Program DirectTransaction := do
  let fee ← reply (match args.fee with | some fee => .ok fee | none => build.swapFee)
  let amountOut ← quoteDirectRoute build world args fee.bps
  reply (demand (args.minimumAmountOut ≤ amountOut) (.slippage "swap.errQuoteMoved"))
  let session ← read
  let prepared ← reply (buildDirectTransaction build.viem build.venues (args.directArgs fee (world.now session.awaits + 1200)))
  record (.prepared (some prepared.trade))
  return prepared

def approveOperator (build : Build δ) (world : World) (args : SwapExecutionIntent) (prepared : DirectTransaction) :
    Program (Option DirectTransaction) :=
  match prepared.permit2Operator, prepared.spender, prepared.inputToken with
  | some operator, some permit2, some token => do
    match ← ensurePermit2Allowance world permit2 token args.sender operator args.amountIn with
    | none => return none
    | some .sufficient => return some prepared
    | some .approved => do
      requireSender args.sender
      let fresh ← prepareSwap build world args
      reply (require (unchanged build.viem fresh.permit2Operator operator ∧ unchanged build.viem fresh.spender permit2 ∧
        unchanged build.viem fresh.inputToken token) "permit2 allowance target changed after approval")
      return some fresh
  | _, _, _ => return some prepared

def approveDirect (build : Build δ) (world : World) (args : SwapExecutionIntent) (prepared : DirectTransaction) :
    Program (Option DirectTransaction) :=
  match prepared.spender, prepared.inputToken with
  | none, _ => return some prepared
  | some _, none => fail (.message "ERC-20 swap is missing its approval token")
  | some spender, some token => do
    match ← ensureAllowance world token args.sender spender args.amountIn with
    | none => return none
    | some .sufficient => approveOperator build world args prepared
    | some .approved => do
      requireSender args.sender
      let fresh ← prepareSwap build world args
      reply (require (unchanged build.viem fresh.spender spender ∧ unchanged build.viem fresh.inputToken token)
        "direct allowance target changed after approval")
      approveOperator build world args fresh

def confirmDirect (args : SwapExecutionIntent) (prepared : DirectTransaction) (receipt : Receipt) : Result ConfirmedSwap :=
  match prepared.outputToken with
  | none => .ok ⟨receipt, .native⟩
  | some token => received receipt token args.recipient args.minimumAmountOut

def executeSwap (build : Build δ) (world : World) (args : SwapExecutionIntent) : Program (Option ConfirmedSwap) := do
  requireSender args.sender
  let prepared ← prepareSwap build world args
  match ← approveDirect build world args prepared with
  | none => return none
  | some prepared => do
    -- The last gate before the wallet is asked to sign the trade itself.
    requireSender args.sender
    match ← step world (hand ⟨args.sender, prepared.trade, none⟩) with
    | none => return none
    | some receipt => return some (← reply (confirmDirect args prepared receipt))

structure SolverSwapIntent where
  tokenIn : HexString
  tokenOut : HexString
  amountIn : ℤ
  slippageBps : ℚ
  minimumAmountOut : ℤ
  sender : HexString
  recipient : HexString
  feeBps : Option ℚ

def widest (enough : ℕ → Bool) (low high : ℕ) : ℕ :=
  if low < high then
    let mid := (low + high + 1) / 2
    if enough mid then widest enough mid high else widest enough low (mid - 1)
  else low
termination_by high - low

def solverSlippageForMinimum (amountOutGross : ℤ) (feeBps : ℕ) (minimumAmountOut : ℤ) (maximumBps : ℕ) : ℕ :=
  widest (fun bps => minimumAmountOut ≤ expectedMinimum amountOutGross feeBps bps) 0 maximumBps

def SolverSwapIntent.quoteRequest (args : SolverSwapIntent) (slippageBps : ℚ) : QuoteRequest where
  tokenIn := args.tokenIn
  tokenOut := args.tokenOut
  amountIn := args.amountIn
  slippageBps
  recipient := some args.recipient
  sender := some args.sender
  feeBps := args.feeBps

def fresh (build : Build δ) (world : World) (args : SolverSwapIntent) (slippageBps : ℚ) : Program (SolverQuote δ) := do
  let quote ← await world fun n =>
    (fetchSolverQuote build.viem build.chain build.parseDisplay (world.solver n) (args.quoteRequest slippageBps)).mapError .quote
  record (.prepared (quote.tx.map solverTrade))
  return quote

def freshPreservingMinimum (build : Build δ) (world : World) (args : SolverSwapIntent) : ℕ → ℚ → Program (SolverQuote δ)
  | 0, _ => fail (.slippage "swap.errQuoteMoved")
  | attempts + 1, slippageBps => do
    let quote ← fresh build world args slippageBps
    if quote.amountOutNet < args.minimumAmountOut then fail (.slippage "swap.errQuoteMoved")
    else if args.minimumAmountOut ≤ quote.minAmountOutNet then return quote
    else
      match isUnsignedInteger quote.feeBps, safeNat slippageBps with
      | some feeBps, some maximumBps =>
        let tighter := solverSlippageForMinimum quote.amountOutGross feeBps args.minimumAmountOut maximumBps
        if maximumBps ≤ tighter then fail (.slippage "swap.errQuoteMoved")
        else freshPreservingMinimum build world args attempts tighter
      | _, _ => fail .outside

def approveSolver (build : Build δ) (world : World) (args : SolverSwapIntent) (quote : SolverQuote δ) :
    Program (Option (SolverQuote δ)) :=
  match quote.allowanceTarget with
  | none => return some quote
  | some spender => do
    let token ← reply (erc20Of build.viem build.venues args.tokenIn)
    match ← ensureAllowance world token args.sender spender args.amountIn with
    | none => return none
    | some .sufficient => return some quote
    | some .approved => do
      requireSender args.sender
      let quote ← freshPreservingMinimum build world args 3 args.slippageBps
      reply (require (unchanged build.viem quote.allowanceTarget spender) "solver allowance target changed after approval")
      return some quote

def registered (viem : Viem) (answer : Result String) : Result String :=
  match answer with
  | .ok address =>
    match viem.getAddress address with
    | some address => .ok address
    | none => .error (.message "solver Settler registry is unavailable or paused")
  | .error _ => .error (.message "solver Settler registry is unavailable or paused")

def assertGenuineSolverSettler (viem : Viem) (world : World) (alleged : String) : Program Unit := do
  let current ← await world fun n => registered viem (world.ownerOf n)
  let alleged ← reply (getAddress viem alleged)
  if current = alleged then return
  else do
    let previous ← await world fun n => registered viem (world.prev n)
    reply (require (previous = alleged) "solver transaction targets a counterfeit Settler")

def preflightSolverTransaction (viem : Viem) (world : World) (account : String) (tx : QuoteTransaction) (settler : String) :
    Program ℤ := do
  reply (require (tx.requiredFrom.all fun sender => lower account = lower sender)
    "solver transaction is bound to a different submitting account")
  assertGenuineSolverSettler viem world settler
  let estimated ← await world world.estimateGas
  return (estimated * 6 + 4).tdiv 5

def confirmSolver (build : Build δ) (args : SolverSwapIntent) (quote : SolverQuote δ) (receipt : Receipt) : Result ConfirmedSwap :=
  if isNative args.tokenOut then .ok ⟨receipt, .native⟩
  else do
    let token ← erc20Of build.viem build.venues args.tokenOut
    received receipt token args.recipient quote.minAmountOutNet

def sendSolver (build : Build δ) (world : World) (args : SolverSwapIntent) (quote : SolverQuote δ) : Program (Option ConfirmedSwap) :=
  match quote.tx, quote.settler with
  | none, _ => fail (.message "solver quote carried no transaction")
  | some _, none => fail (.message "solver quote carried no Settler identity")
  | some tx, some settler => do
    reply (require (tx.requiredFrom.all fun sender => unchanged build.viem (some sender) args.sender)
      "solver transaction is bound to a different submitting account")
    let send := do
      let gas ← preflightSolverTransaction build.viem world args.sender tx settler
      hand ⟨args.sender, solverTrade tx, some gas⟩
    match ← step world send with
    | none => return none
    | some receipt => return some (← reply (confirmSolver build args quote receipt))

def executeSolverSwap (build : Build δ) (world : World) (args : SolverSwapIntent) : Program (Option ConfirmedSwap) := do
  requireSender args.sender
  let quote ← freshPreservingMinimum build world args 3 args.slippageBps
  match ← approveSolver build world args quote with
  | none => return none
  | some quote => sendSolver build world args quote

inductive Flow where
  | direct (args : SwapExecutionIntent)
  | solver (args : SolverSwapIntent)

def execute (build : Build δ) (world : World) : Flow → Program (Option ConfirmedSwap)
  | .direct args => executeSwap build world args
  | .solver args => executeSolverSwap build world args

def Session.start (active : Option String) : Session := ⟨0, active, []⟩

end LpTerminal.Swap
