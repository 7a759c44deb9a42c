import LpTerminal.Solver.Quote
import Mathlib.Tactic.Linarith

/-!
The transaction of a direct route: what each router is called with, and what the caller has to approve
for it first.
-/

namespace LpTerminal.Swap

open Solver (Viem NATIVE lower netAfterFee)
open Fallible

inductive Failure where
  | slippage (message : String)
  | message (text : String)
  | quote (thrown : Solver.Thrown)
  /-- An exception of viem, of the node or of the wallet. -/
  | outside
  deriving DecidableEq

abbrev Result := Except Failure

def require (condition : Prop) [Decidable condition] (text : String) : Result Unit :=
  demand condition (.message text)

structure Fee where
  bps : ℤ
  receiver : String
  deriving DecidableEq

inductive DirectProtocol where
  | uniswap
  | home

inductive ClKey where
  | tickSpacing
  | fee
  deriving DecidableEq

inductive DirectRoute where
  | v2 (protocol : DirectProtocol) (feePpm : ℤ) (connector : Option String)
  | v3 (feePpm : ℤ) (connector : Option String) (secondFeePpm : Option ℤ)
  | clTickSpacing (tickSpacing feePpm : ℤ)
  | clFee (feePpm : ℤ)
  | v4 (feePpm tickSpacing : ℤ)

structure HomeV2 where
  feePpm : ℤ
  SWAP_ROUTER : String

structure UniV4 where
  UNIVERSAL_ROUTER : String
  PERMIT2 : String
  /-- The pairs of a fee and its tick spacing. -/
  rungs : List (ℤ × ℤ)
  perHopSlippage : Bool

structure Venues where
  WNATIVE : String
  V3_SWAP_ROUTER : String
  CL_SWAP_ROUTER : String
  connectors : List String
  uniV3Fees : List ℤ
  homeV2 : Option HomeV2
  keyedBy : ClKey
  homeClFees : List ℤ
  uniV4 : Option UniV4

structure V4PoolKey where
  currency0 : String
  currency1 : String
  fee : ℤ
  tickSpacing : ℤ
  hooks : String
  deriving DecidableEq

inductive V4Action where
  | swapExactInSingle (poolKey : V4PoolKey) (zeroForOne : Bool) (amountIn amountOutMinimum : ℤ) (minHopPriceX36 : Option ℤ)
  | settleAll (currency : String) (amount : ℤ)
  | takePortion (currency recipient : String) (bps : ℤ)
  | take (currency recipient : String) (amount : ℤ)
  deriving DecidableEq

/-- A call of a swap router. The `WithFee` variants of a settlement carry a fee. -/
inductive RouterCall where
  | swapExactTokensForTokens (amountIn amountOutMin : ℤ) (path : List String) (recipient : String)
  | exactInput (path : List String) (fees : List ℤ) (recipient : String) (amountIn amountOutMinimum : ℤ)
  | exactInputSingle (tokenIn tokenOut : String) (pool : ℤ) (recipient : String) (deadline : Option ℤ)
      (amountIn amountOutMinimum sqrtPriceLimitX96 : ℤ)
  | unwrapWETH9 (amountMinimum : ℤ) (recipient : String) (fee : Option Fee)
  | sweepToken (token : String) (amountMinimum : ℤ) (recipient : String) (fee : Option Fee)
  deriving DecidableEq

inductive DirectData where
  | multicall (deadline : Option ℤ) (calls : List RouterCall)
  | execute (actions : List V4Action) (deadline : ℤ)
  deriving DecidableEq

structure DirectTransaction where
  /-- The `to` of the transaction. -/
  target : String
  data : DirectData
  value : ℤ
  spender : Option String
  inputToken : Option String
  outputToken : Option String
  permit2Operator : Option String
  deriving DecidableEq

def UNI_V2_FEE_PPM : ℤ := 3000

def isNative (address : String) : Bool := lower address = lower NATIVE

def getAddress (viem : Viem) (address : String) : Result String :=
  match viem.getAddress address with
  | some checksummed => .ok checksummed
  | none => .error .outside

def erc20Of (viem : Viem) (venues : Venues) (address : String) : Result String :=
  if isNative address then .ok venues.WNATIVE else getAddress viem address

def assertFeeBps (feeBps : ℤ) : Result Unit :=
  require (0 ≤ feeBps ∧ feeBps < 10000) ("Invalid fee bps: " ++ toString feeBps)

def grossMinimumForNet (netAmount feeBps : ℤ) : Result ℤ := do
  require (0 ≤ netAmount) "Net amount cannot be negative"
  assertFeeBps feeBps
  return if netAmount = 0 then 0 else ((netAmount - 1) * 10000).tdiv (10000 - feeBps) + 1

def isUniConnector (venues : Venues) (address : String) : Bool :=
  venues.connectors.any fun connector => lower connector = lower address

def v2FeePpm (venues : Venues) : DirectProtocol → Option ℤ
  | .uniswap => some UNI_V2_FEE_PPM
  | .home => venues.homeV2.map (·.feePpm)

def v2Router (venues : Venues) : DirectProtocol → Option String
  | .uniswap => some venues.V3_SWAP_ROUTER
  | .home => venues.homeV2.map (·.SWAP_ROUTER)

def routeSupported (venues : Venues) : DirectRoute → Bool
  | .v2 protocol feePpm connector =>
    v2FeePpm venues protocol = some feePpm && connector.all (isUniConnector venues)
  | .v4 feePpm tickSpacing =>
    venues.uniV4.any fun v4 => v4.rungs.any fun (fee, spacing) => fee = feePpm && spacing = tickSpacing
  | .v3 feePpm none secondFeePpm => feePpm ∈ venues.uniV3Fees && secondFeePpm.isNone
  | .v3 feePpm (some connector) secondFeePpm =>
    feePpm ∈ venues.uniV3Fees && isUniConnector venues connector && secondFeePpm.any (· ∈ venues.uniV3Fees)
  | .clTickSpacing tickSpacing feePpm =>
    venues.keyedBy = .tickSpacing && 0 < feePpm && feePpm < 1000000 && tickSpacing ≠ 0
  | .clFee feePpm => venues.keyedBy = .fee && 0 < feePpm && feePpm < 1000000 && feePpm ∈ venues.homeClFees

def assertRoute (venues : Venues) (route : DirectRoute) : Result Unit :=
  require (routeSupported venues route = true) "Unsupported direct route"

def swapPath (viem : Viem) (venues : Venues) (connector : Option String) (tokenIn tokenOut : String) : Result (List String) := do
  let input ← erc20Of viem venues tokenIn
  let output ← erc20Of viem venues tokenOut
  match connector with
  | none => return [input, output]
  | some connector =>
    let middle ← getAddress viem connector
    require (lower middle ≠ lower input ∧ lower middle ≠ lower output) "Route connector must differ from both swap endpoints"
    return [input, middle, output]

def v4Currency (token : String) : String :=
  if isNative token then Solver.zeroAddress else token

def v4PoolKey (a b : String) (fee tickSpacing : ℤ) : V4PoolKey :=
  if lower a < lower b then ⟨a, b, fee, tickSpacing, Solver.zeroAddress⟩ else ⟨b, a, fee, tickSpacing, Solver.zeroAddress⟩

def v4ZeroForOne (key : V4PoolKey) (currencyIn : String) : Bool :=
  lower key.currency0 = lower currencyIn

def settledFee (fee : Fee) : Option Fee :=
  if fee.bps = 0 then none else some fee

def feeSettlement (viem : Viem) (venues : Venues) (tokenOut : String) (grossMinimum : ℤ) (recipient : String) (fee : Fee) :
    Result RouterCall :=
  if isNative tokenOut then .ok (.unwrapWETH9 grossMinimum recipient (settledFee fee))
  else do return .sweepToken (← erc20Of viem venues tokenOut) grossMinimum recipient (settledFee fee)

def encodeV4Swap (perHopSlippage : Bool) (key : V4PoolKey) (zeroForOne : Bool) (amountIn grossMinimumOut : ℤ) (recipient : String)
    (fee : Fee) : List V4Action :=
  let currencyIn := if zeroForOne then key.currency0 else key.currency1
  let currencyOut := if zeroForOne then key.currency1 else key.currency0
  [.swapExactInSingle key zeroForOne amountIn grossMinimumOut (if perHopSlippage then some 0 else none),
    .settleAll currencyIn amountIn] ++
  (if 0 < fee.bps then [.takePortion currencyOut fee.receiver fee.bps] else []) ++
  [.take currencyOut recipient 0]

structure DirectArgs where
  tokenIn : String
  tokenOut : String
  amountIn : ℤ
  minimumAmountOut : ℤ
  recipient : String
  deadline : ℤ
  route : DirectRoute
  fee : Fee

/-- A call that pays a native input as value, and has an ERC-20 input pulled by `spender`. -/
def payable (args : DirectArgs) (tokenIn tokenOut target spender : String) (permit2Operator : Option String) (data : DirectData) :
    DirectTransaction where
  target
  data
  value := if isNative args.tokenIn then args.amountIn else 0
  spender := if isNative args.tokenIn then none else some spender
  inputToken := if isNative args.tokenIn then none else some tokenIn
  outputToken := if isNative args.tokenOut then none else some tokenOut
  permit2Operator := if isNative args.tokenIn then none else permit2Operator

def v3Swap (viem : Viem) (venues : Venues) (args : DirectArgs) (tokenIn tokenOut : String) (grossMinimum feePpm : ℤ)
    (connector : Option String) (secondFeePpm : Option ℤ) : Result RouterCall :=
  match connector with
  | none => .ok (.exactInputSingle tokenIn tokenOut feePpm venues.V3_SWAP_ROUTER none args.amountIn grossMinimum 0)
  | some _ => do
    let path ← swapPath viem venues connector args.tokenIn args.tokenOut
    match secondFeePpm with
    | none => .error (.message "Uniswap V3 multihop route is incomplete")
    | some second => return .exactInput path [feePpm, second] venues.V3_SWAP_ROUTER args.amountIn grossMinimum

def buildRoute (viem : Viem) (venues : Venues) (args : DirectArgs) (tokenIn tokenOut : String) (grossMinimum : ℤ) :
    Result DirectTransaction :=
  match args.route with
  | .v4 feePpm tickSpacing =>
    match venues.uniV4 with
    | none => .error .outside
    | some v4 =>
      let currencyIn := v4Currency args.tokenIn
      let key := v4PoolKey currencyIn (v4Currency args.tokenOut) feePpm tickSpacing
      let actions := encodeV4Swap v4.perHopSlippage key (v4ZeroForOne key currencyIn) args.amountIn grossMinimum args.recipient args.fee
      .ok (payable args tokenIn tokenOut v4.UNIVERSAL_ROUTER v4.PERMIT2 (some v4.UNIVERSAL_ROUTER) (.execute actions args.deadline))
  | .v2 protocol _ connector =>
    match v2Router venues protocol with
    | none => .error (.message "Unsupported direct route")
    | some router => do
      let path ← swapPath viem venues connector args.tokenIn args.tokenOut
      let settle ← feeSettlement viem venues args.tokenOut grossMinimum args.recipient args.fee
      let swap := .swapExactTokensForTokens args.amountIn grossMinimum path router
      return payable args tokenIn tokenOut router router none (.multicall (some args.deadline) [swap, settle])
  | .v3 feePpm connector secondFeePpm => do
    let router := venues.V3_SWAP_ROUTER
    let swap ← v3Swap viem venues args tokenIn tokenOut grossMinimum feePpm connector secondFeePpm
    let settle ← feeSettlement viem venues args.tokenOut grossMinimum args.recipient args.fee
    return payable args tokenIn tokenOut router router none (.multicall (some args.deadline) [swap, settle])
  | .clTickSpacing key _ | .clFee key => do
    let router := venues.CL_SWAP_ROUTER
    let swap := .exactInputSingle tokenIn tokenOut key Solver.zeroAddress (some args.deadline) args.amountIn grossMinimum 0
    let settle ← feeSettlement viem venues args.tokenOut grossMinimum args.recipient args.fee
    return payable args tokenIn tokenOut router router none (.multicall none [swap, settle])

def buildDirectTransaction (viem : Viem) (venues : Venues) (args : DirectArgs) : Result DirectTransaction := do
  assertRoute venues args.route
  require (0 < args.amountIn ∧ 0 < args.minimumAmountOut) "Swap amounts must be positive"
  require (0 ≤ args.fee.bps ∧ args.fee.bps ≤ 100) ("Invalid router fee bps: " ++ toString args.fee.bps)
  require (0 < args.deadline) "Swap deadline must be positive"
  require (lower args.recipient ≠ Solver.zeroAddress ∧ lower args.fee.receiver ≠ Solver.zeroAddress) "Swap and fee recipients must be nonzero"
  let tokenIn ← erc20Of viem venues args.tokenIn
  let tokenOut ← erc20Of viem venues args.tokenOut
  require (lower tokenIn ≠ lower tokenOut) "Swap tokens must differ"
  let grossMinimum ← grossMinimumForNet args.minimumAmountOut args.fee.bps
  buildRoute viem venues args tokenIn tokenOut grossMinimum

def RouterCall.netMinimum : RouterCall → Option ℤ
  | .unwrapWETH9 amountMinimum _ fee | .sweepToken _ amountMinimum _ fee =>
    some (netAfterFee ((fee.map (·.bps)).getD 0) amountMinimum)
  | _ => none

def V4Action.floor : V4Action → Option ℤ
  | .swapExactInSingle _ _ _ amountOutMinimum _ => some amountOutMinimum
  | _ => none

def V4Action.portion : V4Action → Option ℤ
  | .takePortion _ _ bps => some bps
  | _ => none

def DirectData.netMinimum : DirectData → Option ℤ
  | .multicall _ calls => calls.findSome? RouterCall.netMinimum
  | .execute actions _ =>
    match actions.findSome? V4Action.floor with
    | some floor => some (netAfterFee ((actions.findSome? V4Action.portion).getD 0) floor)
    | none => none

/-- Who takes the input out of the account: a spender of the token, and for Permit2 its operator. -/
structure Pull where
  spender : String
  operator : Option String

def V4Action.settled : V4Action → Option String
  | .settleAll currency _ => some currency
  | _ => none

def DirectData.pull (venues : Venues) (target : String) (value : ℤ) : DirectData → Option Pull
  | .multicall _ _ => if value = 0 then some ⟨target, none⟩ else none
  | .execute actions _ =>
    match actions.findSome? V4Action.settled, venues.uniV4 with
    | some currency, some v4 => if lower currency = lower Solver.zeroAddress then none else some ⟨v4.PERMIT2, some target⟩
    | _, _ => none

variable {viem : Viem} {venues : Venues}

theorem require_ok {condition : Prop} [Decidable condition] {text : String} {u : Unit} :
    require condition text = .ok u ↔ condition := demand_ok

theorem netAfterFee_floor {bps gross : ℤ} (nonneg : 0 ≤ gross) (charged : 0 ≤ bps) : netAfterFee bps gross = gross - gross * bps / 10000 := by
  unfold netAfterFee
  rw [Int.tdiv_eq_ediv_of_nonneg (Int.mul_nonneg nonneg charged)]

variable {net bps gross : ℤ}

theorem le_netAfterFee_iff (nonneg : 0 ≤ gross) (charged : 0 ≤ bps) :
    net ≤ netAfterFee bps gross ↔ (net - 1) * 10000 < gross * (10000 - bps) := by
  rw [netAfterFee_floor nonneg charged]
  have small : net ≤ gross - gross * bps / 10000 ↔ gross * bps / 10000 < gross - net + 1 := by omega
  rw [small, Int.ediv_lt_iff_lt_mul (by decide)]
  constructor <;> intro bound <;> linarith

theorem grossMinimumForNet_le_iff {net bps gross amount : ℤ} (read : grossMinimumForNet net bps = .ok gross) (nonneg : 0 ≤ amount) :
    gross ≤ amount ↔ net ≤ netAfterFee bps amount := by
  unfold grossMinimumForNet at read
  obtain ⟨_, given, read⟩ := bind_ok read
  obtain ⟨_, range, read⟩ := bind_ok read
  have given := require_ok.mp given
  have range := require_ok.mp range
  have kept : 0 < 10000 - bps := by omega
  cases read
  rw [le_netAfterFee_iff nonneg range.1]
  split
  · rename_i zero
    subst zero
    have product := Int.mul_nonneg nonneg kept.le
    constructor
    · intro _
      omega
    · intro _
      exact nonneg
  · rw [Int.tdiv_eq_ediv_of_nonneg (by omega), Int.add_one_le_iff, Int.ediv_lt_iff_lt_mul kept]

theorem grossMinimumForNet_nonneg (read : grossMinimumForNet net bps = .ok gross) : 0 ≤ gross := by
  unfold grossMinimumForNet at read
  obtain ⟨_, given, read⟩ := bind_ok read
  obtain ⟨_, range, read⟩ := bind_ok read
  have given := require_ok.mp given
  have range := require_ok.mp range
  cases read
  split
  · exact le_rfl
  · have quotient := Int.tdiv_nonneg (a := (net - 1) * 10000) (b := 10000 - bps) (by omega) (by omega)
    omega

theorem grossMinimumForNet_covers (read : grossMinimumForNet net bps = .ok gross) :
    net ≤ netAfterFee bps gross :=
  (grossMinimumForNet_le_iff read (grossMinimumForNet_nonneg read)).mp le_rfl

theorem settledFee_bps (fee : Fee) : ((settledFee fee).map (·.bps)).getD 0 = fee.bps := by
  unfold settledFee
  split
  · rename_i free
    exact free.symm
  · rfl

theorem feeSettlement_netMinimum {tokenOut recipient : String} {gross : ℤ} {fee : Fee} {settle : RouterCall}
    (built : feeSettlement viem venues tokenOut gross recipient fee = .ok settle) :
    settle.netMinimum = some (netAfterFee fee.bps gross) := by
  unfold feeSettlement at built
  split at built
  · cases built
    simp [RouterCall.netMinimum, settledFee_bps]
  · obtain ⟨token, _, built⟩ := bind_ok built
    cases built
    simp [RouterCall.netMinimum, settledFee_bps]

def Approves (venues : Venues) (tx : DirectTransaction) : Prop :=
  ∀ pull, tx.data.pull venues tx.target tx.value = some pull → tx.spender = some pull.spender ∧ tx.permit2Operator = pull.operator

theorem encodeV4Swap_netMinimum {perHop zeroForOne : Bool} {key : V4PoolKey} {amountIn gross deadline : ℤ} {recipient : String}
    {fee : Fee} (nonneg : 0 ≤ fee.bps) :
    (DirectData.execute (encodeV4Swap perHop key zeroForOne amountIn gross recipient fee) deadline).netMinimum =
      some (netAfterFee fee.bps gross) := by
  unfold encodeV4Swap
  dsimp only
  by_cases charged : 0 < fee.bps
  · rw [if_pos charged]
    rfl
  · have free : fee.bps = 0 := by omega
    rw [if_neg charged, free]
    rfl

theorem encodeV4Swap_settled {perHop zeroForOne : Bool} {key : V4PoolKey} {amountIn gross : ℤ} {recipient : String} {fee : Fee} :
    (encodeV4Swap perHop key zeroForOne amountIn gross recipient fee).findSome? V4Action.settled =
      some (if zeroForOne then key.currency0 else key.currency1) := rfl

theorem multicall_netMinimum {deadline : Option ℤ} {swap settle : RouterCall} (silent : swap.netMinimum = none) :
    (DirectData.multicall deadline [swap, settle]).netMinimum = settle.netMinimum := by
  change [swap, settle].findSome? RouterCall.netMinimum = settle.netMinimum
  rw [List.findSome?_cons, silent]
  simp

variable {args : DirectArgs}

theorem v3Swap_silent {tokenIn tokenOut : String} {gross feePpm : ℤ} {connector : Option String}
    {secondFeePpm : Option ℤ} {swap : RouterCall}
    (built : v3Swap viem venues args tokenIn tokenOut gross feePpm connector secondFeePpm = .ok swap) : swap.netMinimum = none := by
  unfold v3Swap at built
  split at built
  · cases built
    rfl
  · obtain ⟨path, _, built⟩ := bind_ok built
    split at built
    · cases built
    · cases built
      rfl

theorem multicall_approves {tokenIn tokenOut router : String} {deadline : Option ℤ} {calls : List RouterCall}
    (positive : 0 < args.amountIn) :
    Approves venues (payable args tokenIn tokenOut router router none (.multicall deadline calls)) := by
  intro pull pulled
  unfold payable DirectData.pull at pulled
  unfold payable
  by_cases native : isNative args.tokenIn = true
  · have nonzero : args.amountIn ≠ 0 := by omega
    simp [native, nonzero] at pulled
  · simp [native] at pulled ⊢
    simp [← pulled]

theorem v4_settles (tokenIn tokenOut : String) (fee tickSpacing : ℤ) :
    let key := v4PoolKey tokenIn tokenOut fee tickSpacing
    lower (if v4ZeroForOne key tokenIn then key.currency0 else key.currency1) = lower tokenIn := by
  dsimp only
  by_cases first : v4ZeroForOne (v4PoolKey tokenIn tokenOut fee tickSpacing) tokenIn = true
  · rw [if_pos first]
    exact of_decide_eq_true first
  · rw [if_neg first]
    unfold v4ZeroForOne v4PoolKey at *
    split at first
    · simp at first
    · rename_i ordered
      rw [if_neg ordered]

theorem buildRoute_covers {tokenIn tokenOut : String} {gross : ℤ} {tx : DirectTransaction}
    (built : buildRoute viem venues args tokenIn tokenOut gross = .ok tx) (positive : 0 < args.amountIn) (nonneg : 0 ≤ args.fee.bps) :
    tx.data.netMinimum = some (netAfterFee args.fee.bps gross) ∧ Approves venues tx ∧
      (tx.spender.isSome → tx.inputToken = some tokenIn) ∧ (tx.permit2Operator.isSome → tx.spender.isSome) := by
  have tokened : ∀ {target spender : String} {operator : Option String} {data : DirectData},
      let tx := payable args tokenIn tokenOut target spender operator data
      (tx.spender.isSome → tx.inputToken = some tokenIn) ∧ (tx.permit2Operator.isSome → tx.spender.isSome) := by
    intro target spender operator data
    unfold payable
    by_cases native : isNative args.tokenIn = true
    · simp [native]
    · simp [native]
  unfold buildRoute at built
  split at built
  · split at built
    · cases built
    · rename_i v4 deployed
      cases built
      refine ⟨encodeV4Swap_netMinimum nonneg, ?_, tokened⟩
      intro pull pulled
      have settles := v4_settles (v4Currency args.tokenIn) (v4Currency args.tokenOut)
      dsimp only [payable, DirectData.pull] at pulled
      rw [encodeV4Swap_settled, deployed] at pulled
      dsimp only at pulled
      rw [settles] at pulled
      split at pulled
      · cases pulled
      · rename_i token
        have erc20 : ¬ isNative args.tokenIn = true := fun native => token (congrArg lower (if_pos native))
        cases pulled
        exact ⟨if_neg erc20, if_neg erc20⟩
  · split at built
    · cases built
    · obtain ⟨path, _, built⟩ := bind_ok built
      obtain ⟨settle, settled, built⟩ := bind_ok built
      cases built
      exact ⟨(multicall_netMinimum rfl).trans (feeSettlement_netMinimum settled), multicall_approves positive, tokened⟩
  · obtain ⟨swap, swapped, built⟩ := bind_ok built
    obtain ⟨settle, settled, built⟩ := bind_ok built
    cases built
    have silent := v3Swap_silent swapped
    exact ⟨(multicall_netMinimum silent).trans (feeSettlement_netMinimum settled), multicall_approves positive, tokened⟩
  all_goals
    obtain ⟨settle, settled, built⟩ := bind_ok built
    cases built
    exact ⟨(multicall_netMinimum rfl).trans (feeSettlement_netMinimum settled), multicall_approves positive, tokened⟩

theorem buildDirectTransaction_covers {tx : DirectTransaction} (built : buildDirectTransaction viem venues args = .ok tx) :
    (∃ least, tx.data.netMinimum = some least ∧ args.minimumAmountOut ≤ least) ∧ Approves venues tx ∧
      (tx.spender.isSome → ∃ tokenIn, erc20Of viem venues args.tokenIn = .ok tokenIn ∧ tx.inputToken = some tokenIn) ∧
      (tx.permit2Operator.isSome → tx.spender.isSome) := by
  unfold buildDirectTransaction at built
  obtain ⟨_, _, built⟩ := bind_ok built
  obtain ⟨_, amounts, built⟩ := bind_ok built
  obtain ⟨_, charged, built⟩ := bind_ok built
  iterate 2 obtain ⟨_, _, built⟩ := bind_ok built
  obtain ⟨tokenIn, read, built⟩ := bind_ok built
  obtain ⟨tokenOut, _, built⟩ := bind_ok built
  obtain ⟨_, _, built⟩ := bind_ok built
  obtain ⟨gross, grossed, built⟩ := bind_ok built
  have amounts := require_ok.mp amounts
  have charged := require_ok.mp charged
  obtain ⟨least, approves, token, operated⟩ := buildRoute_covers built amounts.1 charged.1
  exact ⟨⟨_, least, grossMinimumForNet_covers grossed⟩, approves, fun spent => ⟨tokenIn, read, token spent⟩, operated⟩

end LpTerminal.Swap
