import LpTerminal.Solver.Wire
import LpTerminal.Lib.Fallible

/-!
The quote client: a response body is checked against the active chain, against the request it answers
and against the transaction it carries before any of it is used.
-/

namespace LpTerminal.Solver

open Fallible

inductive Thrown where
  | quote (message : String) (status : ℕ)
  /-- An exception of the language or of a library. -/
  | other
  deriving DecidableEq

abbrev Result := Except Thrown

/-- The arguments of `exec(operator, token, amount, target, data)`. -/
structure ExecCall where
  operator : String
  token : String
  amount : ℕ
  target : String
  data : String

/-- The `slippage` argument of `execute(slippage, actions, zidAndAffiliate)`. -/
structure Slippage where
  recipient : String
  buyToken : String
  minAmountOut : ℕ

/-- The address and ABI functions of viem. A decoder that throws answers `none`. -/
structure Viem where
  getAddress : String → Option String
  isHex : String → Bool
  decodeAllowanceHolder : String → Option ExecCall
  decodeSettlerTaker : String → Option Slippage

structure Chain where
  id : ℕ
  key : String
  solverAllowanceTarget : Option String
  /-- `FEATURES.solver && ENV.solverUrl`. -/
  solver : Bool

def NATIVE : String := "0xEeeeeEeeeEeEeeEeEeEeeEEEeeeeEeeeeeeeEEeE"

def zeroAddress : String := "0x0000000000000000000000000000000000000000"

def SOLVER_DEADLINE_SECONDS : ℕ := 600

/-- `0x${string}`. -/
abbrev HexString := {s : String // s.startsWith "0x" = true}

structure QuoteRequest where
  tokenIn : HexString
  tokenOut : HexString
  amountIn : ℤ
  slippageBps : ℚ
  recipient : Option HexString
  sender : Option HexString
  feeBps : Option ℚ

def requireActiveChain (chain : Chain) (body : Option Json) : Result ℕ :=
  match isUnsignedInteger (property body "chainId") with
  | none => .error (.quote "solver response has an invalid chainId" 502)
  | some chainId =>
    if chainId ≠ chain.id then
      .error (.quote ("solver chain mismatch: expected " ++ toString chain.id ++ ", received " ++ toString chainId) 502)
    else .ok chainId

/-- `(typeof value === 'string' ? value.toLowerCase() : value) === (expected?.toLowerCase() ?? null)`. -/
def echoes (value : Option Json) (expected : Option HexString) : Bool :=
  match value, expected with
  | some (.str s), some address => lower s = lower address
  | some .null, none => true
  | _, _ => false

/-- `value === (expected ?? null)`. -/
def echoesNumber (value : Option Json) (expected : Option ℚ) : Bool :=
  match value, expected with
  | some (.num sent), some number => sent = number
  | some .null, none => true
  | _, _ => false

def netAfterFee (fee amount : ℤ) : ℤ :=
  amount - (amount * fee).tdiv 10000

def expectedMinimum (gross fee slippageBps : ℤ) : ℤ :=
  netAfterFee fee ((gross * (10000 - slippageBps)).tdiv 10000)

def requestEchoed (body : Option Json) (args : QuoteRequest) : Bool :=
  lower ((text (property body "tokenIn")).getD "") = lower args.tokenIn &&
  lower ((text (property body "tokenOut")).getD "") = lower args.tokenOut &&
  (text (property body "amountIn")).getD "" = toString args.amountIn &&
  echoesNumber (property body "slippageBps") (some args.slippageBps) &&
  echoesNumber (property body "deadlineSeconds") (some SOLVER_DEADLINE_SECONDS) &&
  echoesNumber (property body "requestedFeeBps") args.feeBps &&
  echoes (property body "recipient") args.recipient &&
  echoes (property body "sender") args.sender

def inconsistentBounds : Thrown := .quote "solver response has inconsistent output bounds" 502

def echoedFee (body : Option Json) (args : QuoteRequest) : Option ℕ :=
  (isUnsignedInteger (property body "feeBps")).filter fun fee =>
    fee ≤ 1000 && (args.feeBps.all fun requested => (fee : ℚ) = requested)

def requireOutputBounds (body : Option Json) (args : QuoteRequest) (slippageBps : ℕ) : Result Unit :=
  match echoedFee body args, decimal (property body "amountOutGross"), decimal (property body "amountOutNet"),
      decimal (property body "minAmountOutNet") with
  | some fee, some gross, some net, some minimum =>
    demand (net = netAfterFee fee gross ∧ minimum = expectedMinimum gross fee slippageBps) inconsistentBounds
  | _, _, _, _ => .error inconsistentBounds

def requireSender (body : Option Json) (args : QuoteRequest) : Result Unit :=
  match args.recipient with
  | some recipient =>
    demand (lower ((text (property (property body "tx") "requiredFrom")).getD "") = lower (args.sender.getD recipient))
      (.quote "solver response is bound to a different sender" 502)
  | none =>
    demand (absent (property body "tx")) (.quote "display-only solver response carried a transaction" 502)

def requireRequestEcho (body : Option Json) (args : QuoteRequest) (slippageBps : ℕ) : Result Unit := do
  demand (requestEchoed body args) (.quote "solver response does not match the quote request" 502)
  requireOutputBounds body args slippageBps
  requireSender body args

def parseWireAddress (viem : Viem) (value : Option Json) (field : String) : Result String :=
  match (text value).bind viem.getAddress with
  | some address =>
    if address = zeroAddress then .error (.quote ("solver response has an invalid " ++ field) 502) else .ok address
  | none => .error (.quote ("solver response has an invalid " ++ field) 502)

/-- `value === undefined || value === null ? null : parseWireAddress(value, field)`. -/
def parseOptionalAddress (viem : Viem) (value : Option Json) (field : String) : Result (Option String) :=
  if absent value then .ok none
  else
    match parseWireAddress viem value field with
    | .ok address => .ok (some address)
    | .error thrown => .error thrown

/-- `getAddress(left) === getAddress(right)`, where a throw of either is caught. -/
def sameAddress (viem : Viem) (left : String) (right : Option Json) : Bool :=
  match viem.getAddress left, (text right).bind viem.getAddress with
  | some first, some second => first = second
  | _, _ => false

/-- `value === null`. -/
def isNull : Option Json → Bool
  | some .null => true
  | _ => false

def nativeInput (body : Option Json) : Bool :=
  (text (property body "tokenIn")).any fun tokenIn => lower tokenIn = lower NATIVE

def transactionCall (viem : Viem) (body : Option Json) : Result (ℤ × String) :=
  match decimal (property (property body "tx") "value"), text (property (property body "tx") "data") with
  | some value, some data =>
    if data.length < 10 ∨ viem.isHex data = false then
      .error (.quote "solver transaction has an invalid value or calldata" 502)
    else .ok (value, data)
  | _, _ => .error (.quote "solver transaction has an invalid value or calldata" 502)

def nativeSettlerData (body : Option Json) (settler target : String) (value : ℤ) (data : String) : Result String :=
  if isNull (property body "allowanceTarget") ∧ target = settler ∧ decimal (property body "amountIn") = some value then .ok data
  else .error (.quote "solver native transaction has an invalid Settler binding" 502)

/-- The `exec` call delegates this input amount to this Settler. -/
def delegates (viem : Viem) (body : Option Json) (settler : String) (call : ExecCall) : Bool :=
  viem.getAddress call.operator = some settler &&
  viem.getAddress call.target = some settler &&
  sameAddress viem call.token (property body "tokenIn") &&
  decimal (property body "amountIn") = some (call.amount : ℤ)

def erc20SettlerData (viem : Viem) (chain : Chain) (body : Option Json) (settler target : String) (value : ℤ) (data : String) :
    Result String :=
  match parseWireAddress viem (property body "allowanceTarget") "allowanceTarget" with
  | .error thrown => .error thrown
  | .ok allowanceTarget =>
    if chain.solverAllowanceTarget ≠ some allowanceTarget then
      .error (.quote "solver ERC-20 transaction has an untrusted allowance target" 502)
    else if target ≠ allowanceTarget ∨ value ≠ 0 then
      .error (.quote "solver ERC-20 transaction has an invalid allowance binding" 502)
    else
      match viem.decodeAllowanceHolder data with
      | some call =>
        if delegates viem body settler call then .ok call.data
        else .error (.quote "solver ERC-20 transaction has an invalid Settler binding" 502)
      | none => .error (.quote "solver ERC-20 transaction has an invalid Settler binding" 502)

/-- The `execute` call names the quote's recipient, output token and minimum. -/
def executionBound (viem : Viem) (body : Option Json) (settlerData : String) : Bool :=
  match viem.decodeSettlerTaker settlerData with
  | some slippage =>
    sameAddress viem slippage.recipient (property body "recipient") &&
    sameAddress viem slippage.buyToken (property body "tokenOut") &&
    decimal (property body "minAmountOutNet") = some (slippage.minAmountOut : ℤ)
  | none => false

structure Execution where
  settler : Option String
  allowanceTarget : Option String

def parseExecutionBinding (viem : Viem) (chain : Chain) (body : Option Json) : Result Execution := do
  let settler ← parseOptionalAddress viem (property body "settler") "settler"
  if absent (property body "tx") then
    let allowanceTarget ← parseOptionalAddress viem (property body "allowanceTarget") "allowanceTarget"
    return ⟨settler, allowanceTarget⟩
  else
    match settler with
    | none => .error (.quote "solver transaction has no Settler binding" 502)
    | some settler =>
      let target ← parseWireAddress viem (property (property body "tx") "to") "transaction target"
      let (value, data) ← transactionCall viem body
      if nativeInput body then
        let settlerData ← nativeSettlerData body settler target value data
        demand (executionBound viem body settlerData)
          (.quote "solver transaction has an invalid execution bounds binding" 502)
        return ⟨some settler, none⟩
      else
        let settlerData ← erc20SettlerData viem chain body settler target value data
        demand (executionBound viem body settlerData)
          (.quote "solver transaction has an invalid execution bounds binding" 502)
        let allowanceTarget ← parseWireAddress viem (property body "allowanceTarget") "allowanceTarget"
        return ⟨some settler, some allowanceTarget⟩

structure QuoteTransaction where
  requiredFrom : Option String
  /-- The `to` of the transaction. -/
  target : String
  value : ℤ
  data : String

/-- A parsed quote. The fields that only describe the route or the search are in `display`. -/
structure SolverQuote (δ : Type) where
  chainId : ℕ
  settler : Option String
  amountIn : ℤ
  amountOutGross : ℤ
  amountOutNet : ℤ
  minAmountOutNet : ℤ
  feeBps : Option Json
  deadline : Option Json
  tx : Option QuoteTransaction
  allowanceTarget : Option String
  display : δ

def readBigInt (value : Option Json) : Result ℤ :=
  match (text value).bind bigInt with
  | some amount => .ok amount
  | none => .error .other

def readAddress (viem : Viem) (value : Option Json) : Result String :=
  match (text value).bind viem.getAddress with
  | some address => .ok address
  | none => .error .other

def truthy : Option Json → Bool
  | none | some .null => false
  | some (.bool value) => value
  | some (.num number) => number ≠ 0
  | some (.str s) => s ≠ ""
  | some (.arr _) | some (.obj _) => true

def parseRequiredFrom (viem : Viem) (tx : Option Json) : Result (Option String) :=
  if truthy (property tx "requiredFrom") then
    match readAddress viem (property tx "requiredFrom") with
    | .ok sender => .ok (some sender)
    | .error thrown => .error thrown
  else .ok none

def parseTransaction (viem : Viem) (tx : Option Json) : Result (Option QuoteTransaction) :=
  if truthy tx then do
    let requiredFrom ← parseRequiredFrom viem tx
    let target ← readAddress viem (property tx "to")
    let value ← readBigInt (property tx "value")
    match text (property tx "data") with
    | some data => return some { requiredFrom, target, value, data }
    | none => .error .other
  else .ok none

/-- `parseDisplay` reads the route map, the diagnostics and the certificate; it may throw. -/
def parseSolverQuoteResponse {δ : Type} (viem : Viem) (chain : Chain) (parseDisplay : ℕ → Option Json → Result δ)
    (body : Option Json) : Result (SolverQuote δ) := do
  let chainId ← requireActiveChain chain body
  let execution ← parseExecutionBinding viem chain body
  let display ← parseDisplay chainId body
  let amountIn ← readBigInt (property body "amountIn")
  let amountOutGross ← readBigInt (property body "amountOutGross")
  let amountOutNet ← readBigInt (property body "amountOutNet")
  let minAmountOutNet ← readBigInt (property body "minAmountOutNet")
  let tx ← parseTransaction viem (property body "tx")
  return {
    chainId
    settler := execution.settler
    amountIn, amountOutGross, amountOutNet, minAmountOutNet
    feeBps := property body "feeBps"
    deadline := property body "deadline"
    tx
    allowanceTarget := execution.allowanceTarget
    display
  }

/-- What the solver endpoint answers; a body that is not JSON is `none`. -/
structure Response where
  ok : Bool
  status : ℕ
  json : Option Json

def parseSolverQuoteError (status : ℕ) (body : Option Json) : Thrown :=
  .quote ((text (property body "error")).getD ("solver HTTP " ++ toString status)) status

def requestSlippage (args : QuoteRequest) : Option ℕ :=
  (safeNat args.slippageBps).filter fun slippageBps =>
    slippageBps < 10000 && args.feeBps.all fun feeBps => (safeNat feeBps).any (· ≤ 100)

def fetchSolverQuote {δ : Type} (viem : Viem) (chain : Chain) (parseDisplay : ℕ → Option Json → Result δ)
    (fetch : QuoteRequest → Response) (args : QuoteRequest) : Result (SolverQuote δ) :=
  match requestSlippage args with
  | none => .error (.quote "solver quote request has invalid bps" 400)
  | some slippageBps =>
    if chain.solver = false then
      .error (.quote ("solver is unavailable for chain " ++ toString chain.id) 503)
    else
      let res := fetch args
      match res.json with
      | none => .error (if res.ok then .other else .quote ("solver HTTP " ++ toString res.status) res.status)
      | some body => do
        let _ ← requireActiveChain chain body
        demand (res.ok = true) (parseSolverQuoteError res.status body)
        requireRequestEcho body args slippageBps
        parseSolverQuoteResponse viem chain parseDisplay body

end LpTerminal.Solver
