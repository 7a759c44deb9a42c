import LpTerminal.Solver.Quote

/-!
A quote that is accepted for a request carries a transaction of that request, or none.
-/

namespace LpTerminal.Solver

open Fallible

variable {viem : Viem} {chain : Chain} {body : Option Json} {args : QuoteRequest}

/-- `getAddress` reads the same address from any case of its digits. -/
def Viem.IgnoresCase (viem : Viem) : Prop :=
  ∀ (s : String) (t : HexString) (address : String),
    viem.getAddress s = some address → lower s = lower t → viem.getAddress t = some address

def Viem.Same (viem : Viem) (left right : String) : Prop :=
  ∃ address, viem.getAddress left = some address ∧ viem.getAddress right = some address

/-- The transaction spends the requested amount of the requested token, and the Settler runs
`settlerData`: with the amount as value, or through the allowance target of the chain. -/
def SpendsInput (viem : Viem) (chain : Chain) (args : QuoteRequest) (settler settlerData : String) (tx : QuoteTransaction) : Prop :=
  if lower args.tokenIn = lower NATIVE then
    tx.target = settler ∧ tx.value = args.amountIn ∧ tx.data = settlerData
  else
    chain.solverAllowanceTarget = some tx.target ∧ tx.value = 0 ∧
      ∃ call, viem.decodeAllowanceHolder tx.data = some call ∧ viem.getAddress call.operator = some settler ∧
        viem.getAddress call.target = some settler ∧ viem.Same call.token args.tokenIn ∧
        (call.amount : ℤ) = args.amountIn ∧ call.data = settlerData

/-- The `execute` call pays the requested recipient the requested token, and at least the net of the
fee on the gross output less the requested slippage. -/
def BoundsOutput {δ : Type} (viem : Viem) (args : QuoteRequest) (recipient : String) (quote : SolverQuote δ) (settlerData : String) :
    Prop :=
  ∃ slippage, viem.decodeSettlerTaker settlerData = some slippage ∧ viem.Same slippage.recipient recipient ∧
    viem.Same slippage.buyToken args.tokenOut ∧
    ∃ fee slippageBps : ℕ, quote.feeBps = some (.num fee) ∧ args.slippageBps = slippageBps ∧
      (slippage.minAmountOut : ℤ) = expectedMinimum quote.amountOutGross fee slippageBps

def Requested {δ : Type} (viem : Viem) (chain : Chain) (args : QuoteRequest) (quote : SolverQuote δ) (tx : QuoteTransaction) : Prop :=
  ∃ settler settlerData recipient, quote.settler = some settler ∧ args.recipient = some recipient ∧
    SpendsInput viem chain args settler settlerData tx ∧ BoundsOutput viem args recipient quote settlerData ∧
    ∃ sender, tx.requiredFrom = some sender ∧ viem.getAddress (args.sender.getD recipient).val = some sender

variable {s : String}

theorem text_eq {value : Option Json} (read : text value = some s) : value = some (.str s) := by
  unfold text at read
  split at read
  · cases read
    rfl
  · cases read

theorem parseWireAddress_ok {value : Option Json} {field address : String}
    (parsed : parseWireAddress viem value field = .ok address) : ∃ s, text value = some s ∧ viem.getAddress s = some address := by
  unfold parseWireAddress at parsed
  split at parsed
  · rename_i found read
    split at parsed
    · cases parsed
    · cases parsed
      exact Option.bind_eq_some_iff.mp read
  · cases parsed

theorem sameAddress_ok {left : String} {right : Option Json} (same : sameAddress viem left right = true) :
    ∃ s, text right = some s ∧ viem.Same left s := by
  unfold sameAddress at same
  split at same
  · rename_i first second readFirst readSecond
    obtain ⟨s, spelled, read⟩ := Option.bind_eq_some_iff.mp readSecond
    have eq : first = second := of_decide_eq_true same
    exact ⟨s, spelled, first, readFirst, eq ▸ read⟩
  · cases same

variable {amount : ℤ}

theorem decimal_ok {value : Option Json} (read : decimal value = some amount) :
    ∃ s, text value = some s ∧ bigInt s = some amount := by
  obtain ⟨s, filtered, value⟩ := Option.bind_eq_some_iff.mp read
  exact ⟨s, (Option.filter_eq_some_iff.mp filtered).1, value⟩

variable {value : ℤ}

theorem transactionCall_ok {data : String} (parsed : transactionCall viem body = .ok (value, data)) :
    decimal (property (property body "tx") "value") = some value ∧ text (property (property body "tx") "data") = some data := by
  unfold transactionCall at parsed
  split at parsed
  · rename_i readValue readData
    split at parsed
    · cases parsed
    · cases parsed
      exact ⟨readValue, readData⟩
  · cases parsed

theorem nativeSettlerData_ok {settler target data settlerData : String}
    (parsed : nativeSettlerData body settler target value data = .ok settlerData) :
    target = settler ∧ decimal (property body "amountIn") = some value ∧ data = settlerData := by
  unfold nativeSettlerData at parsed
  split at parsed
  · rename_i checked
    cases parsed
    exact ⟨checked.2.1, checked.2.2, rfl⟩
  · cases parsed

theorem erc20SettlerData_ok {settler target data settlerData : String}
    (parsed : erc20SettlerData viem chain body settler target value data = .ok settlerData) :
    chain.solverAllowanceTarget = some target ∧ value = 0 ∧
      ∃ call, viem.decodeAllowanceHolder data = some call ∧ delegates viem body settler call = true ∧ call.data = settlerData := by
  unfold erc20SettlerData at parsed
  split at parsed
  · cases parsed
  · rename_i allowanceTarget _
    split at parsed
    · cases parsed
    · rename_i trusted
      split at parsed
      · cases parsed
      · rename_i bound
        obtain ⟨own, free⟩ := not_or.mp bound
        split at parsed
        · rename_i call decoded
          split at parsed
          · rename_i delegated
            cases parsed
            have here : target = allowanceTarget := not_not.mp own
            subst here
            exact ⟨not_not.mp trusted, not_not.mp free, call, decoded, delegated, rfl⟩
          · cases parsed
        · cases parsed

/-- What `parseExecutionBinding` found of a body that carries a transaction. -/
def Bound (viem : Viem) (chain : Chain) (body : Option Json) (settler settlerData target : String) (value : ℤ) (data : String) : Prop :=
  if nativeInput body then
    target = settler ∧ decimal (property body "amountIn") = some value ∧ data = settlerData
  else
    chain.solverAllowanceTarget = some target ∧ value = 0 ∧
      ∃ call, viem.decodeAllowanceHolder data = some call ∧ delegates viem body settler call = true ∧ call.data = settlerData

theorem parseExecutionBinding_ok {execution : Execution} (parsed : parseExecutionBinding viem chain body = .ok execution)
    (carried : absent (property body "tx") = false) :
    ∃ settler settlerData target value data, execution.settler = some settler ∧
      (text (property (property body "tx") "to")).bind viem.getAddress = some target ∧
      decimal (property (property body "tx") "value") = some value ∧
      text (property (property body "tx") "data") = some data ∧
      Bound viem chain body settler settlerData target value data ∧ executionBound viem body settlerData = true := by
  unfold parseExecutionBinding at parsed
  obtain ⟨settler, _, parsed⟩ := bind_ok parsed
  rw [if_neg (by rw [carried]; exact Bool.false_ne_true)] at parsed
  cases settler with
  | none => cases parsed
  | some settler =>
    dsimp only at parsed
    obtain ⟨target, readTarget, parsed⟩ := bind_ok parsed
    obtain ⟨⟨value, data⟩, call, parsed⟩ := bind_ok parsed
    obtain ⟨readValue, readData⟩ := transactionCall_ok call
    obtain ⟨s, spelled, address⟩ := parseWireAddress_ok readTarget
    have targeted : (text (property (property body "tx") "to")).bind viem.getAddress = some target :=
      Option.bind_eq_some_iff.mpr ⟨s, spelled, address⟩
    dsimp only at parsed
    split at parsed
    · rename_i native
      obtain ⟨settlerData, made, parsed⟩ := bind_ok parsed
      obtain ⟨_, bounded, parsed⟩ := bind_ok parsed
      cases parsed
      have bound : Bound viem chain body settler settlerData target value data := by
        unfold Bound
        rw [if_pos native]
        exact nativeSettlerData_ok made
      exact ⟨settler, settlerData, target, value, data, rfl, targeted, readValue, readData, bound, demand_ok.mp bounded⟩
    · rename_i token
      obtain ⟨settlerData, made, parsed⟩ := bind_ok parsed
      obtain ⟨_, bounded, parsed⟩ := bind_ok parsed
      obtain ⟨_, _, parsed⟩ := bind_ok parsed
      cases parsed
      have bound : Bound viem chain body settler settlerData target value data := by
        unfold Bound
        rw [if_neg token]
        exact erc20SettlerData_ok made
      exact ⟨settler, settlerData, target, value, data, rfl, targeted, readValue, readData, bound, demand_ok.mp bounded⟩

theorem readAddress_ok {value : Option Json} {address : String} (read : readAddress viem value = .ok address) :
    (text value).bind viem.getAddress = some address := by
  unfold readAddress at read
  split at read
  · rename_i found
    cases read
    exact found
  · cases read

theorem readBigInt_ok {value : Option Json} (read : readBigInt value = .ok amount) :
    (text value).bind bigInt = some amount := by
  unfold readBigInt at read
  split at read
  · rename_i found
    cases read
    exact found
  · cases read

theorem parseTransaction_ok {value : Option Json} {tx : QuoteTransaction} (parsed : parseTransaction viem value = .ok (some tx)) :
    (text (property value "to")).bind viem.getAddress = some tx.target ∧
      (text (property value "value")).bind bigInt = some tx.value ∧ text (property value "data") = some tx.data ∧
      ∀ s, text (property value "requiredFrom") = some s → s ≠ "" →
        ∃ sender, tx.requiredFrom = some sender ∧ viem.getAddress s = some sender := by
  unfold parseTransaction at parsed
  split at parsed
  · obtain ⟨requiredFrom, readFrom, parsed⟩ := bind_ok parsed
    obtain ⟨target, readTarget, parsed⟩ := bind_ok parsed
    obtain ⟨amount, readAmount, parsed⟩ := bind_ok parsed
    split at parsed
    · rename_i data readData
      cases parsed
      refine ⟨readAddress_ok readTarget, readBigInt_ok readAmount, readData, fun s spelled nonempty => ?_⟩
      unfold parseRequiredFrom at readFrom
      rw [text_eq spelled, if_pos (by simpa [truthy] using nonempty)] at readFrom
      split at readFrom
      · rename_i sender told
        cases readFrom
        exact ⟨sender, rfl, readAddress_ok told⟩
      · cases readFrom
    · cases parsed
  · cases parsed

theorem parseTransaction_absent {value : Option Json} {tx : Option QuoteTransaction} (parsed : parseTransaction viem value = .ok tx)
    (missing : absent value = true) : tx = none := by
  unfold absent at missing
  split at missing
  · cases parsed
    rfl
  · cases parsed
    rfl
  · cases missing

theorem requestEchoed_eq (echoed : requestEchoed body args = true) :
    lower ((text (property body "tokenIn")).getD "") = lower args.tokenIn ∧
      lower ((text (property body "tokenOut")).getD "") = lower args.tokenOut ∧
      (text (property body "amountIn")).getD "" = toString args.amountIn ∧
      echoes (property body "recipient") args.recipient = true := by
  simp only [requestEchoed, Bool.and_eq_true, decide_eq_true_eq] at echoed
  obtain ⟨⟨⟨⟨⟨⟨⟨tokenIn, tokenOut⟩, amountIn⟩, _⟩, _⟩, _⟩, recipient⟩, _⟩ := echoed
  exact ⟨tokenIn, tokenOut, amountIn, recipient⟩

variable {slippageBps : ℕ}

theorem requireOutputBounds_ok (checked : requireOutputBounds body args slippageBps = .ok ()) :
    ∃ fee gross, isUnsignedInteger (property body "feeBps") = some fee ∧ decimal (property body "amountOutGross") = some gross ∧
      decimal (property body "minAmountOutNet") = some (expectedMinimum gross fee slippageBps) := by
  unfold requireOutputBounds at checked
  split at checked
  · rename_i fee gross net minimum readFee readGross readNet readMinimum
    obtain ⟨_, least⟩ := demand_ok.mp checked
    have sent : isUnsignedInteger (property body "feeBps") = some fee := (Option.filter_eq_some_iff.mp readFee).1
    exact ⟨fee, gross, sent, readGross, least ▸ readMinimum⟩
  · cases checked

theorem bigInt_decimal {value : Option Json} (read : decimal value = some amount) :
    (text value).bind bigInt = some amount := by
  obtain ⟨s, spelled, amount⟩ := decimal_ok read
  rw [spelled]
  exact amount

theorem decimal_echo (echoed : (text (property body "amountIn")).getD "" = toString args.amountIn)
    (read : decimal (property body "amountIn") = some amount) : amount = args.amountIn := by
  obtain ⟨s, spelled, value⟩ := decimal_ok read
  rw [spelled, Option.getD_some] at echoed
  rw [echoed, bigInt_toString] at value
  exact (Option.some.inj value).symm

theorem same_echo {left : String} {value : Option Json} {requested : HexString} (ignores : viem.IgnoresCase)
    (echoed : lower ((text value).getD "") = lower requested) (same : sameAddress viem left value = true) :
    viem.Same left requested := by
  obtain ⟨s, spelled, address, readLeft, readRight⟩ := sameAddress_ok same
  rw [spelled, Option.getD_some] at echoed
  exact ⟨address, readLeft, ignores s requested address readRight echoed⟩

theorem echoes_some {value : Option Json} {requested : HexString} (echoed : echoes value (some requested) = true) :
    lower ((text value).getD "") = lower requested := by
  unfold echoes at echoed
  split at echoed
  · rename_i s address sent
    cases sent
    exact of_decide_eq_true echoed
  · rename_i missing
    cases missing
  · cases echoed

theorem nativeInput_echo (echoed : lower ((text (property body "tokenIn")).getD "") = lower args.tokenIn) :
    nativeInput body = true ↔ lower args.tokenIn = lower NATIVE := by
  have named : lower NATIVE ≠ lower "" := by decide
  unfold nativeInput
  cases spelled : text (property body "tokenIn") with
  | none =>
    rw [spelled, Option.getD_none] at echoed
    simp [← echoed, named.symm]
  | some s =>
    rw [spelled, Option.getD_some] at echoed
    simp [← echoed]

theorem lower_hex_ne (address : HexString) : lower address ≠ lower "" := by
  obtain ⟨s, hex⟩ := address
  intro same
  have none : (lower s).toList = [] := by rw [same]; rfl
  have empty : s = "" := by
    simpa [lower] using none
  subst empty
  exact absurd hex (by decide)

theorem Bound.spends {settler settlerData target data : String} (ignores : viem.IgnoresCase)
    (bound : Bound viem chain body settler settlerData target value data)
    (tokenIn : lower ((text (property body "tokenIn")).getD "") = lower args.tokenIn)
    (amountIn : (text (property body "amountIn")).getD "" = toString args.amountIn) (requiredFrom : Option String) :
    SpendsInput viem chain args settler settlerData { requiredFrom, target, value, data } := by
  unfold Bound at bound
  unfold SpendsInput
  split at bound
  · rename_i native
    obtain ⟨own, amount, same⟩ := bound
    rw [if_pos ((nativeInput_echo tokenIn).mp native)]
    exact ⟨own, decimal_echo amountIn amount, same⟩
  · rename_i token
    obtain ⟨trusted, free, call, decoded, delegated, inner⟩ := bound
    simp only [delegates, Bool.and_eq_true, decide_eq_true_eq] at delegated
    obtain ⟨⟨⟨operator, delegate⟩, spent⟩, amount⟩ := delegated
    rw [if_neg (fun native => token ((nativeInput_echo tokenIn).mpr native))]
    exact ⟨trusted, free, call, decoded, operator, delegate, same_echo ignores tokenIn spent, decimal_echo amountIn amount, inner⟩

theorem executionBound_bounds {δ : Type} {quote : SolverQuote δ} {settlerData : String} {recipient : HexString}
    (ignores : viem.IgnoresCase) (bounded : executionBound viem body settlerData = true) (slippage : args.slippageBps = slippageBps)
    (checked : requireOutputBounds body args slippageBps = .ok ())
    (paid : lower ((text (property body "recipient")).getD "") = lower recipient)
    (tokenOut : lower ((text (property body "tokenOut")).getD "") = lower args.tokenOut)
    (fee : quote.feeBps = property body "feeBps") (gross : (text (property body "amountOutGross")).bind bigInt = some quote.amountOutGross) :
    BoundsOutput viem args recipient quote settlerData := by
  obtain ⟨feeBps, amount, sent, readGross, readMinimum⟩ := requireOutputBounds_ok checked
  have same : amount = quote.amountOutGross := Option.some.inj ((bigInt_decimal readGross).symm.trans gross)
  subst same
  unfold executionBound at bounded
  split at bounded
  · rename_i decoded read
    simp only [Bool.and_eq_true, decide_eq_true_eq] at bounded
    obtain ⟨⟨receives, buys⟩, least⟩ := bounded
    refine ⟨decoded, read, same_echo ignores paid receives, same_echo ignores tokenOut buys, feeBps, slippageBps, ?_, slippage, ?_⟩
    · rw [fee, isUnsignedInteger_eq sent]
    · exact Option.some.inj (least.symm.trans readMinimum)
  · cases bounded

theorem requestSlippage_eq (read : requestSlippage args = some slippageBps) : args.slippageBps = slippageBps :=
  safeNat_eq (Option.filter_eq_some_iff.mp read).1

theorem fetchSolverQuote_ok {δ : Type} {parseDisplay : ℕ → Option Json → Result δ} {fetch : QuoteRequest → Response}
    {quote : SolverQuote δ} (accepted : fetchSolverQuote viem chain parseDisplay fetch args = .ok quote) :
    ∃ slippageBps body, args.slippageBps = (slippageBps : ℕ) ∧ requireRequestEcho (some body) args slippageBps = .ok () ∧
      parseSolverQuoteResponse viem chain parseDisplay (some body) = .ok quote := by
  unfold fetchSolverQuote at accepted
  split at accepted
  · cases accepted
  · rename_i slippageBps read
    split at accepted
    · cases accepted
    · dsimp only at accepted
      split at accepted
      · cases accepted
      · rename_i body _
        iterate 2 obtain ⟨_, _, accepted⟩ := bind_ok accepted
        obtain ⟨_, echoed, accepted⟩ := bind_ok accepted
        exact ⟨slippageBps, body, requestSlippage_eq read, echoed, accepted⟩

theorem parseSolverQuoteResponse_ok {δ : Type} {parseDisplay : ℕ → Option Json → Result δ} {quote : SolverQuote δ}
    (parsed : parseSolverQuoteResponse viem chain parseDisplay body = .ok quote) :
    ∃ execution, parseExecutionBinding viem chain body = .ok execution ∧ quote.settler = execution.settler ∧
      (text (property body "amountOutGross")).bind bigInt = some quote.amountOutGross ∧
      quote.feeBps = property body "feeBps" ∧ parseTransaction viem (property body "tx") = .ok quote.tx := by
  unfold parseSolverQuoteResponse at parsed
  obtain ⟨_, _, parsed⟩ := bind_ok parsed
  obtain ⟨execution, bound, parsed⟩ := bind_ok parsed
  iterate 2 obtain ⟨_, _, parsed⟩ := bind_ok parsed
  obtain ⟨_, gross, parsed⟩ := bind_ok parsed
  iterate 2 obtain ⟨_, _, parsed⟩ := bind_ok parsed
  obtain ⟨_, carried, parsed⟩ := bind_ok parsed
  cases parsed
  exact ⟨execution, bound, rfl, readBigInt_ok gross, rfl, carried⟩

theorem requireSender_bound {recipient : HexString} {tx : QuoteTransaction} (ignores : viem.IgnoresCase)
    (requested : args.recipient = some recipient) (checked : requireSender body args = .ok ())
    (read : ∀ s, text (property (property body "tx") "requiredFrom") = some s → s ≠ "" →
      ∃ sender, tx.requiredFrom = some sender ∧ viem.getAddress s = some sender) :
    ∃ sender, tx.requiredFrom = some sender ∧ viem.getAddress (args.sender.getD recipient).val = some sender := by
  unfold requireSender at checked
  rw [requested] at checked
  have same := demand_ok.mp checked
  cases spelled : text (property (property body "tx") "requiredFrom") with
  | none =>
    rw [spelled, Option.getD_none] at same
    exact absurd same.symm (lower_hex_ne _)
  | some s =>
    rw [spelled, Option.getD_some] at same
    have nonempty : s ≠ "" := fun empty => lower_hex_ne (args.sender.getD recipient) (by rw [← same, empty])
    obtain ⟨sender, bound, address⟩ := read s spelled nonempty
    exact ⟨sender, bound, ignores s _ sender address same⟩

/-- A transaction of an accepted quote spends the requested input and no other, pays the requested
recipient at least the net minimum of the requested output, and is bound to the requested sender; a
request that names no recipient gets no transaction. -/
theorem fetchSolverQuote_requested {δ : Type} {parseDisplay : ℕ → Option Json → Result δ} {fetch : QuoteRequest → Response}
    {quote : SolverQuote δ} (ignores : viem.IgnoresCase)
    (accepted : fetchSolverQuote viem chain parseDisplay fetch args = .ok quote) :
    (∀ tx, quote.tx = some tx → Requested viem chain args quote tx) ∧ (args.recipient = none → quote.tx = none) := by
  obtain ⟨slippageBps, json, slippage, echo, parsed⟩ := fetchSolverQuote_ok accepted
  generalize some json = body at echo parsed
  unfold requireRequestEcho at echo
  obtain ⟨_, matched, echo⟩ := bind_ok echo
  obtain ⟨_, bounds, sender⟩ := bind_ok echo
  obtain ⟨tokenIn, tokenOut, amountIn, echoedRecipient⟩ := requestEchoed_eq (demand_ok.mp matched)
  obtain ⟨execution, bound, settlerEq, gross, fee, carried⟩ := parseSolverQuoteResponse_ok parsed
  constructor
  · intro tx transaction
    rw [transaction] at carried
    have present : absent (property body "tx") = false := by
      by_contra missing
      have nothing := parseTransaction_absent carried (Bool.not_eq_false _ ▸ missing)
      cases nothing
    obtain ⟨settler, settlerData, target, value, data, named, readTarget, readValue, readData, bound, bounded⟩ :=
      parseExecutionBinding_ok bound present
    obtain ⟨ownTarget, ownValue, ownData, from'⟩ := parseTransaction_ok carried
    have sameTarget : target = tx.target := Option.some.inj (readTarget.symm.trans ownTarget)
    have sameValue : value = tx.value := Option.some.inj ((bigInt_decimal readValue).symm.trans ownValue)
    have sameData : data = tx.data := Option.some.inj (readData.symm.trans ownData)
    subst sameTarget sameValue sameData
    cases requested : args.recipient with
    | none =>
      unfold requireSender at sender
      rw [requested] at sender
      rw [demand_ok.mp sender] at present
      cases present
    | some recipient =>
      rw [requested] at echoedRecipient
      have paid := echoes_some echoedRecipient
      exact ⟨settler, settlerData, recipient, settlerEq.trans named, requested, bound.spends ignores tokenIn amountIn tx.requiredFrom,
        executionBound_bounds ignores bounded slippage bounds paid tokenOut fee gross,
        requireSender_bound ignores requested sender from'⟩
  · intro requested
    unfold requireSender at sender
    rw [requested] at sender
    exact parseTransaction_absent carried (demand_ok.mp sender)

def sampleSettler : String := "0x0000000000000000000000000000000000000044"

def sampleTokenOut : HexString := ⟨"0x0000000000000000000000000000000000000022", by decide +kernel⟩

def sampleRecipient : HexString := ⟨"0x0000000000000000000000000000000000000066", by decide +kernel⟩

/-- `execute` with the recipient, the token, the minimum, the offset of no actions and no tag. -/
def sampleData : String :=
  "0x1fff991f" ++
  "0000000000000000000000000000000000000000000000000000000000000066" ++
  "0000000000000000000000000000000000000000000000000000000000000022" ++
  "00000000000000000000000000000000000000000000000000000000075261d1" ++
  "00000000000000000000000000000000000000000000000000000000000000a0" ++
  "0000000000000000000000000000000000000000000000000000000000000000" ++
  "0000000000000000000000000000000000000000000000000000000000000000"

def sampleViem : Viem where
  getAddress s :=
    if lower s ∈ [sampleSettler, sampleTokenOut.val, sampleRecipient.val] ∧ s.startsWith "0x" then some (lower s) else none
  isHex s := s = sampleData
  decodeAllowanceHolder _ := none
  decodeSettlerTaker data := if data = sampleData then some ⟨sampleRecipient, sampleTokenOut, 122839505⟩ else none

theorem sampleViem_ignoresCase : sampleViem.IgnoresCase := by
  intro s t address read same
  have read : (if lower s ∈ [sampleSettler, sampleTokenOut.val, sampleRecipient.val] ∧ s.startsWith "0x" then some (lower s) else none) =
      some address := read
  split at read
  · rename_i known
    cases read
    change (if _ then some (lower t) else none) = some (lower s)
    rw [← same, if_pos ⟨known.1, t.property⟩]
  · cases read

def sampleChain : Chain where
  id := 56
  key := "bsc"
  solverAllowanceTarget := some "0x0000000000001fF3684f28c67538d4D072C22734"
  solver := true

theorem native_hex : NATIVE.startsWith "0x" = true := by decide +kernel

def sampleRequest : QuoteRequest where
  tokenIn := ⟨NATIVE, native_hex⟩
  tokenOut := sampleTokenOut
  amountIn := 500000000000000000
  slippageBps := 50
  recipient := some sampleRecipient
  sender := none
  feeBps := none

def sampleBody : Json := .obj [
  ("chainId", .num 56), ("settler", .str sampleSettler), ("tokenIn", .str NATIVE), ("tokenOut", .str sampleTokenOut),
  ("amountIn", .str "500000000000000000"), ("slippageBps", .num 50), ("deadlineSeconds", .num 600), ("requestedFeeBps", .null),
  ("recipient", .str sampleRecipient), ("sender", .null), ("feeBps", .num 0), ("amountOutGross", .str "123456789"),
  ("amountOutNet", .str "123456789"), ("minAmountOutNet", .str "122839505"), ("allowanceTarget", .null),
  ("tx", .obj [("requiredFrom", .str sampleRecipient), ("to", .str sampleSettler), ("value", .str "500000000000000000"),
    ("data", .str sampleData)])]

theorem sampleData_length : 10 ≤ sampleData.length := by
  have head : "0x1fff991f".length = 10 := by decide
  unfold sampleData
  simp only [String.length_append]
  omega

section

variable (known : s ∈ [sampleSettler, sampleTokenOut.val, sampleRecipient.val])
include known

theorem sampleAddress_clean :
    lower s = s ∧ s.startsWith "0x" = true ∧ s ≠ zeroAddress := by
  revert s
  decide +kernel

theorem sampleAddress_get :
    (text (some (.str s))).bind sampleViem.getAddress = some s := by
  obtain ⟨clean, hex, -⟩ := sampleAddress_clean known
  change sampleViem.getAddress s = some s
  unfold sampleViem
  dsimp only
  rw [clean, if_pos ⟨known, hex⟩]

theorem sampleAddress_wire (field : String) :
    parseWireAddress sampleViem (some (.str s)) field = .ok s := by
  unfold parseWireAddress
  rw [sampleAddress_get known]
  exact if_neg (sampleAddress_clean known).2.2

theorem sampleAddress_same :
    sameAddress sampleViem s (some (.str s)) = true := by
  have read : sampleViem.getAddress s = some s := sampleAddress_get known
  unfold sameAddress
  rw [read, sampleAddress_get known]
  exact decide_eq_true rfl

theorem sampleAddress_read :
    readAddress sampleViem (some (.str s)) = .ok s := by
  unfold readAddress
  rw [sampleAddress_get known]

end

theorem sampleRecipient_echoes : echoes (some (.str sampleRecipient)) (some sampleRecipient) = true := by
  change decide (lower sampleRecipient = lower sampleRecipient) = true
  exact decide_eq_true rfl

/-- A reply with the identities and the transaction of the sample. -/
structure SampleReply (body : Option Json) : Prop where
  chainId : property body "chainId" = some (.num 56)
  settler : property body "settler" = some (.str sampleSettler)
  tokenIn : property body "tokenIn" = some (.str NATIVE)
  tokenOut : property body "tokenOut" = some (.str sampleTokenOut)
  amountIn : property body "amountIn" = some (.str "500000000000000000")
  slippageBps : property body "slippageBps" = some (.num 50)
  deadlineSeconds : property body "deadlineSeconds" = some (.num 600)
  requestedFeeBps : property body "requestedFeeBps" = some .null
  recipient : property body "recipient" = some (.str sampleRecipient)
  feeBps : property body "feeBps" = some (.num 0)
  gross : property body "amountOutGross" = some (.str "123456789")
  net : property body "amountOutNet" = some (.str "123456789")
  minimum : property body "minAmountOutNet" = some (.str "122839505")
  allowanceTarget : property body "allowanceTarget" = some .null
  carried : absent (property body "tx") = false
  truthy : truthy (property body "tx") = true
  requiredFrom : property (property body "tx") "requiredFrom" = some (.str sampleRecipient)
  target : property (property body "tx") "to" = some (.str sampleSettler)
  value : property (property body "tx") "value" = some (.str "500000000000000000")
  data : property (property body "tx") "data" = some (.str sampleData)

theorem sampleBody_reply : SampleReply (some sampleBody) :=
  ⟨rfl, rfl, rfl, rfl, rfl, rfl, rfl, rfl, rfl, rfl, rfl, rfl, rfl, rfl, rfl, rfl, rfl, rfl, rfl, rfl⟩

namespace SampleReply

section

variable (reply : SampleReply body)
include reply

theorem active : requireActiveChain sampleChain body = .ok 56 := by
  unfold requireActiveChain
  rw [reply.chainId]
  decide

theorem call : transactionCall sampleViem body = .ok (500000000000000000, sampleData) := by
  have value : decimal (some (.str "500000000000000000")) = some 500000000000000000 := by decide
  have hex : sampleViem.isHex sampleData = true := by simp only [sampleViem, decide_true]
  have checked : ¬ (sampleData.length < 10 ∨ sampleViem.isHex sampleData = false) := by
    rw [hex]
    exact not_or.mpr ⟨not_lt.mpr sampleData_length, by decide⟩
  unfold transactionCall
  rw [reply.value, reply.data, value]
  exact if_neg checked

theorem native : nativeInput body = true := by
  unfold nativeInput
  rw [reply.tokenIn]
  simp only [text, Option.any_some, decide_true]

theorem settlerData :
    nativeSettlerData body sampleSettler sampleSettler 500000000000000000 sampleData = .ok sampleData := by
  have amount : decimal (some (.str "500000000000000000")) = some 500000000000000000 := by decide
  unfold nativeSettlerData
  rw [reply.allowanceTarget, reply.amountIn]
  exact if_pos ⟨rfl, rfl, amount⟩

theorem bounded : executionBound sampleViem body sampleData = true := by
  have taker : sampleViem.decodeSettlerTaker sampleData = some ⟨sampleRecipient, sampleTokenOut, 122839505⟩ := by
    simp only [sampleViem, if_true]
  have least : decimal (some (.str "122839505")) = some 122839505 := by decide
  unfold executionBound
  rw [taker]
  dsimp only
  rw [reply.recipient, reply.tokenOut, reply.minimum, least, sampleAddress_same (by simp), sampleAddress_same (by simp)]
  rfl

theorem execution :
    parseExecutionBinding sampleViem sampleChain body = .ok ⟨some sampleSettler, none⟩ := by
  have settler : parseOptionalAddress sampleViem (property body "settler") "settler" = .ok (some sampleSettler) := by
    unfold parseOptionalAddress
    rw [reply.settler, if_neg (by exact Bool.false_ne_true), sampleAddress_wire (by simp)]
  unfold parseExecutionBinding
  rw [settler, ok_bind, if_neg (by rw [reply.carried]; exact Bool.false_ne_true)]
  dsimp only
  rw [reply.target, sampleAddress_wire (by simp), ok_bind, reply.call, ok_bind]
  dsimp only
  rw [if_pos reply.native, reply.settlerData, ok_bind, demand_bind reply.bounded]
  rfl

theorem transaction : parseTransaction sampleViem (property body "tx") =
    .ok (some ⟨some sampleRecipient, sampleSettler, 500000000000000000, sampleData⟩) := by
  have sender : parseRequiredFrom sampleViem (property body "tx") = .ok (some sampleRecipient.val) := by
    unfold parseRequiredFrom
    rw [reply.requiredFrom, if_pos (by decide), sampleAddress_read (by simp)]
  have value : readBigInt (some (.str "500000000000000000")) = .ok 500000000000000000 := by decide
  unfold parseTransaction
  rw [if_pos reply.truthy, sender, ok_bind, reply.target, sampleAddress_read (by simp), ok_bind, reply.value, value, ok_bind,
    reply.data]
  rfl

theorem echoed (tokenIn : args.tokenIn.val = NATIVE) (tokenOut : args.tokenOut = sampleTokenOut)
    (amountIn : args.amountIn = 500000000000000000) (slippage : args.slippageBps = 50) (fee : args.feeBps = none)
    (recipient : args.recipient = some sampleRecipient) (sender : echoes (property body "sender") args.sender = true)
    (from' : lower sampleRecipient = lower (args.sender.getD sampleRecipient)) :
    requireRequestEcho body args 50 = .ok () := by
  have paid : toString (500000000000000000 : ℤ) = "500000000000000000" := by decide
  have seconds : echoesNumber (some (.num 600)) (some SOLVER_DEADLINE_SECONDS) = true := by decide
  have bps : echoesNumber (some (.num 50)) (some 50) = true := by decide
  have free : echoesNumber (some .null) none = true := rfl
  have unchanged : requestEchoed body args = true := by
    unfold requestEchoed
    rw [reply.tokenIn, reply.tokenOut, reply.amountIn, reply.slippageBps, reply.deadlineSeconds, reply.requestedFeeBps,
      reply.recipient, sender, seconds, tokenIn, tokenOut, amountIn, slippage, fee, recipient, paid, bps, free, sampleRecipient_echoes]
    simp [text]
  have bounds : requireOutputBounds body args 50 = .ok () := by
    unfold requireOutputBounds echoedFee
    rw [reply.feeBps, reply.gross, reply.net, reply.minimum, fee]
    decide
  have bound : requireSender body args = .ok () := by
    unfold requireSender
    rw [recipient, reply.requiredFrom]
    exact demand_ok.mpr from'
  unfold requireRequestEcho
  rw [demand_bind unchanged, bounds, ok_bind, bound]

end

end SampleReply

theorem sampleQuote_requested :
    ∃ quote tx, fetchSolverQuote sampleViem sampleChain (fun _ _ => .ok ()) (fun _ => ⟨true, 200, some sampleBody⟩) sampleRequest =
        .ok quote ∧ quote.tx = some tx ∧ Requested sampleViem sampleChain sampleRequest quote tx := by
  have reply := sampleBody_reply
  have echoed : requireRequestEcho (some sampleBody) sampleRequest 50 = .ok () := reply.echoed rfl rfl rfl rfl rfl rfl rfl rfl
  have slippage : requestSlippage sampleRequest = some 50 := by decide
  have amounts : ∀ name ∈ ["amountIn", "amountOutGross", "amountOutNet", "minAmountOutNet"],
      ∃ amount, readBigInt (property (some sampleBody) name) = .ok amount := by
    intro name member
    have read : (readBigInt (property (some sampleBody) name)).isOk = true := by
      revert name
      decide
    cases told : readBigInt (property (some sampleBody) name) with
    | ok amount => exact ⟨amount, rfl⟩
    | error thrown =>
      rw [told] at read
      cases read
  obtain ⟨amountIn, readIn⟩ := amounts "amountIn" (by simp)
  obtain ⟨gross, readGross⟩ := amounts "amountOutGross" (by simp)
  obtain ⟨net, readNet⟩ := amounts "amountOutNet" (by simp)
  obtain ⟨minimum, readMinimum⟩ := amounts "minAmountOutNet" (by simp)
  have accepted : ∃ quote, fetchSolverQuote sampleViem sampleChain (fun _ _ => .ok ()) (fun _ => ⟨true, 200, some sampleBody⟩)
      sampleRequest = .ok quote ∧ quote.tx = some ⟨some sampleRecipient, sampleSettler, 500000000000000000, sampleData⟩ := by
    unfold fetchSolverQuote parseSolverQuoteResponse
    rw [slippage]
    dsimp only
    rw [if_neg (by decide)]
    simp only [reply.active, echoed, reply.execution, readIn, readGross, readNet, readMinimum, reply.transaction, ok_bind,
      demand_bind]
    exact ⟨_, rfl, rfl⟩
  obtain ⟨quote, accepted, transaction⟩ := accepted
  exact ⟨quote, _, accepted, transaction, (fetchSolverQuote_requested sampleViem_ignoresCase accepted).1 _ transaction⟩

end LpTerminal.Solver
