import LpTerminal.Swap.DirectTransaction

/-!
The floor a direct transaction encodes, and the router that enforces it: no smaller one would leave the recipient
the minimum of every swap that goes through.
-/

namespace LpTerminal.Swap

open Solver (Viem lower netAfterFee)
open Fallible

def Leaving (net bps : ℤ) : Set ℤ := {gross | 0 ≤ gross ∧ net ≤ netAfterFee bps gross}

variable {net bps gross : ℤ}

theorem grossMinimumForNet_least (read : grossMinimumForNet net bps = .ok gross) : IsLeast (Leaving net bps) gross := by
  have nonneg := grossMinimumForNet_nonneg read
  constructor
  · exact ⟨nonneg, (grossMinimumForNet_le_iff read nonneg).mp le_rfl⟩
  · rintro amount ⟨unsigned, leaves⟩
    exact (grossMinimumForNet_le_iff read unsigned).mpr leaves

theorem grossMinimumForNet_reads (given : 0 ≤ net) (charged : 0 ≤ bps) (below : bps < 10000) : ∃ gross, grossMinimumForNet net bps = .ok gross := by
  unfold grossMinimumForNet assertFeeBps
  rw [(require_ok (u := ())).mpr given, (require_ok (u := ())).mpr ⟨charged, below⟩]
  exact ⟨_, rfl⟩

structure Payment where
  recipient : String
  amount : ℤ

/-- What a router holds of each token, and what it has paid out of it. -/
structure Desk where
  held : String → ℤ
  paid : Option Payment

def Desk.receive (desk : Desk) (token : String) (amount : ℤ) : Desk :=
  { desk with held := Function.update desk.held token (desk.held token + amount) }

def Desk.charge (desk : Desk) (token : String) (bps : ℤ) : Desk :=
  { desk with held := Function.update desk.held token (desk.held token - desk.held token * bps / 10000) }

def Desk.pay (desk : Desk) (token recipient : String) (amount : ℤ) : Desk where
  held := Function.update desk.held token (desk.held token - amount)
  paid := some ⟨recipient, amount⟩

def Desk.swap (desk : Desk) (router token recipient : String) (floor output : ℤ) : Option Desk :=
  if output < floor then none else if lower recipient = lower router then some (desk.receive token output) else some desk

def Desk.settle (desk : Desk) (token recipient : String) (floor : ℤ) (fee : Option Fee) : Option Desk :=
  if desk.held token < floor then none
  else
    let charged := desk.charge token ((fee.map (·.bps)).getD 0)
    some (charged.pay token recipient (charged.held token))

def RouterCall.run (venues : Venues) (router : String) (output : ℤ) (desk : Desk) : RouterCall → Option Desk
  | .swapExactTokensForTokens _ amountOutMin path recipient => desk.swap router (path.getLast?.getD "") recipient amountOutMin output
  | .exactInput path _ recipient _ amountOutMinimum => desk.swap router (path.getLast?.getD "") recipient amountOutMinimum output
  | .exactInputSingle _ tokenOut _ recipient deadline _ amountOutMinimum _ =>
    let recipient := if deadline.isSome ∧ recipient = Solver.zeroAddress then router else recipient
    desk.swap router tokenOut recipient amountOutMinimum output
  | .unwrapWETH9 amountMinimum recipient fee => desk.settle venues.WNATIVE recipient amountMinimum fee
  | .sweepToken token amountMinimum recipient fee => desk.settle token recipient amountMinimum fee

def V4Action.run (output : ℤ) (desk : Desk) : V4Action → Option Desk
  | .swapExactInSingle key zeroForOne _ amountOutMinimum _ =>
    if output < amountOutMinimum then none else some (desk.receive (if zeroForOne then key.currency1 else key.currency0) output)
  | .settleAll _ _ => some desk
  | .takePortion currency _ bps => some (desk.charge currency bps)
  | .take currency recipient amount => some (desk.pay currency recipient (if amount = 0 then desk.held currency else amount))

def DirectTransaction.run (venues : Venues) (tx : DirectTransaction) (desk : Desk) (output : ℤ) : Option Desk :=
  match tx.data with
  | .multicall _ calls => calls.foldlM (RouterCall.run venues tx.target output) desk
  | .execute actions _ => actions.foldlM (V4Action.run output) desk

variable {viem : Viem} {venues : Venues} {args : DirectArgs} {tokenIn tokenOut : String} {tx : DirectTransaction} {desk : Desk}

variable {token : String}

@[simp] theorem Desk.held_receive {amount : ℤ} : (desk.receive token amount).held token = desk.held token + amount :=
  Function.update_self ..

@[simp] theorem Desk.held_charge : (desk.charge token bps).held token = desk.held token - desk.held token * bps / 10000 :=
  Function.update_self ..

/-- The transaction reverts below the floor, and above it leaves the recipient the token less the fee. -/
structure Runs (venues : Venues) (args : DirectArgs) (tx : DirectTransaction) (floor : ℤ) (token : String) : Prop where
  reverts : ∀ desk output, output < floor → tx.run venues desk output = none
  pays : ∀ desk output, floor ≤ output → 0 ≤ desk.held token → ∃ after, tx.run venues desk output = some after ∧
    after.paid = some ⟨args.recipient, desk.held token + output - (desk.held token + output) * args.fee.bps / 10000⟩

def Leaves (venues : Venues) (router token : String) (floor : ℤ) (swap : RouterCall) : Prop :=
  ∀ desk output, swap.run venues router output desk = if output < floor then none else some (desk.receive token output)

theorem Desk.swap_own {router token : String} {floor output : ℤ} : desk.swap router token router floor output =
    if output < floor then none else some (desk.receive token output) := by
  unfold Desk.swap
  rw [if_pos rfl]

theorem swapPath_last {connector : Option String} {path : List String} (output : erc20Of viem venues tokenOut = .ok token)
    (read : swapPath viem venues connector tokenIn tokenOut = .ok path) : path.getLast?.getD "" = token := by
  unfold swapPath at read
  obtain ⟨input, _, read⟩ := bind_ok read
  obtain ⟨last, same, read⟩ := bind_ok read
  rw [output] at same
  cases same
  split at read
  · cases read
    rfl
  · obtain ⟨middle, _, read⟩ := bind_ok read
    obtain ⟨_, _, read⟩ := bind_ok read
    cases read
    rfl

theorem feeSettlement_settles (output : erc20Of viem venues args.tokenOut = .ok token) (floor : ℤ) :
    ∃ settle, feeSettlement viem venues args.tokenOut floor args.recipient args.fee = .ok settle ∧
      ∀ router output desk, settle.run venues router output desk = desk.settle token args.recipient floor (settledFee args.fee) := by
  unfold feeSettlement
  by_cases native : isNative args.tokenOut = true
  · have wrapped : venues.WNATIVE = token := by
      unfold erc20Of at output
      rw [if_pos native] at output
      cases output
      rfl
    rw [if_pos native]
    subst wrapped
    exact ⟨_, rfl, fun _ _ _ => rfl⟩
  · rw [if_neg native, output]
    exact ⟨_, rfl, fun _ _ _ => rfl⟩

theorem multicall_runs {token router spender : String} {operator : Option String} {deadline : Option ℤ} {swap settle : RouterCall} {floor : ℤ}
    (leaves : Leaves venues router token floor swap)
    (settles : ∀ output desk, settle.run venues router output desk = desk.settle token args.recipient floor (settledFee args.fee)) :
    Runs venues args (payable args tokenIn tokenOut router spender operator (.multicall deadline [swap, settle])) floor token where
  reverts desk output below := by
    show [swap, settle].foldlM (RouterCall.run venues router output) desk = none
    rw [List.foldlM_cons, leaves, if_pos below]
    rfl
  pays desk output enough held := by
    show ∃ after, [swap, settle].foldlM (RouterCall.run venues router output) desk = some after ∧ _
    rw [List.foldlM_cons, leaves, if_neg (by omega)]
    show ∃ after, [settle].foldlM (RouterCall.run venues router output) (desk.receive token output) = some after ∧ _
    rw [List.foldlM_cons, settles]
    unfold Desk.settle
    rw [if_neg (by rw [Desk.held_receive]; omega), settledFee_bps]
    refine ⟨_, rfl, ?_⟩
    simp only [Desk.pay, Desk.held_charge, Desk.held_receive]

theorem v3Swap_leaves {feePpm : ℤ} {connector : Option String} {secondFeePpm : Option ℤ} {swap : RouterCall}
    (output : erc20Of viem venues args.tokenOut = .ok tokenOut)
    (built : v3Swap viem venues args tokenIn tokenOut gross feePpm connector secondFeePpm = .ok swap) (floor : ℤ) :
    ∃ swap, v3Swap viem venues args tokenIn tokenOut floor feePpm connector secondFeePpm = .ok swap ∧
      Leaves venues venues.V3_SWAP_ROUTER tokenOut floor swap := by
  unfold v3Swap at built ⊢
  cases connector with
  | none => exact ⟨_, rfl, fun _ _ => Desk.swap_own⟩
  | some connector =>
    obtain ⟨path, read, built⟩ := bind_ok built
    dsimp only
    rw [read]
    cases secondFeePpm with
    | none => cases built
    | some second =>
      refine ⟨_, rfl, fun desk output' => ?_⟩
      show desk.swap _ (path.getLast?.getD "") _ _ _ = _
      rw [swapPath_last output read]
      exact Desk.swap_own

theorem encodeV4Swap_runs {perHop zeroForOne : Bool} {key : V4PoolKey} {amountIn deadline floor : ℤ} {router spender : String} {operator : Option String}
    (charged : 0 ≤ args.fee.bps) :
    Runs venues args (payable args tokenIn tokenOut router spender operator
      (.execute (encodeV4Swap perHop key zeroForOne amountIn floor args.recipient args.fee) deadline)) floor
      (if zeroForOne then key.currency1 else key.currency0) where
  reverts desk output below := by
    show (encodeV4Swap perHop key zeroForOne amountIn floor args.recipient args.fee).foldlM (V4Action.run output) desk = none
    show (if output < floor then none else _ : Option Desk).bind _ = none
    rw [if_pos below]
    rfl
  pays desk output enough held := by
    show ∃ after, (if output < floor then none else _ : Option Desk).bind _ = some after ∧ _
    rw [if_neg (by omega)]
    by_cases taken : 0 < args.fee.bps
    · rw [if_pos taken]
      refine ⟨_, rfl, ?_⟩
      simp [Desk.pay]
    · have free : args.fee.bps = 0 := by omega
      rw [if_neg taken]
      refine ⟨_, rfl, ?_⟩
      simp [Desk.pay, free]

theorem buildRoute_runs (output : erc20Of viem venues args.tokenOut = .ok tokenOut) (charged : 0 ≤ args.fee.bps)
    (built : buildRoute viem venues args tokenIn tokenOut gross = .ok tx) (floor : ℤ) :
    ∃ other token, buildRoute viem venues args tokenIn tokenOut floor = .ok other ∧ Runs venues args other floor token := by
  obtain ⟨settle, settled, settles⟩ := feeSettlement_settles output floor
  unfold buildRoute at built ⊢
  split at built
  · split at built
    · cases built
    · exact ⟨_, _, rfl, encodeV4Swap_runs charged⟩
  · split at built
    · cases built
    · obtain ⟨path, read, built⟩ := bind_ok built
      rw [read, settled]
      refine ⟨_, tokenOut, rfl, multicall_runs (fun desk output' => ?_) (settles _)⟩
      show desk.swap _ (path.getLast?.getD "") _ _ _ = _
      rw [swapPath_last output read]
      exact Desk.swap_own
  · obtain ⟨swap, swapped, built⟩ := bind_ok built
    obtain ⟨other, swaps, leaves⟩ := v3Swap_leaves output swapped floor
    dsimp only
    rw [swaps, settled]
    exact ⟨_, tokenOut, rfl, multicall_runs leaves (settles _)⟩
  all_goals
    dsimp only
    rw [settled]
    exact ⟨_, tokenOut, rfl, multicall_runs (fun _ _ => Desk.swap_own) (settles _)⟩

def Guarantees (venues : Venues) (args : DirectArgs) (tx : DirectTransaction) : Prop :=
  ∀ desk output after, (∀ token, 0 ≤ desk.held token) → 0 ≤ output → tx.run venues desk output = some after →
    ∃ amount, after.paid = some ⟨args.recipient, amount⟩ ∧ args.minimumAmountOut ≤ amount

def Desk.empty : Desk := ⟨fun _ => 0, none⟩

theorem Runs.guarantees_iff {floor : ℤ} (runs : Runs venues args tx floor token)
    (read : grossMinimumForNet args.minimumAmountOut args.fee.bps = .ok gross) (charged : 0 ≤ args.fee.bps) (nonneg : 0 ≤ floor) :
    Guarantees venues args tx ↔ gross ≤ floor := by
  constructor
  · intro guaranteed
    obtain ⟨after, ran, paid⟩ := runs.pays Desk.empty floor le_rfl le_rfl
    obtain ⟨amount, same, enough⟩ := guaranteed Desk.empty floor after (fun _ => le_rfl) nonneg ran
    have none' : Desk.empty.held token + floor = floor := zero_add floor
    rw [paid, none', ← netAfterFee_floor nonneg charged] at same
    cases same
    exact (grossMinimumForNet_le_iff read nonneg).mpr enough
  · intro above desk output after held unsigned ran
    rcases lt_or_ge output floor with below | enough
    · rw [runs.reverts desk output below] at ran
      cases ran
    · obtain ⟨other, same, paid⟩ := runs.pays desk output enough (held token)
      rw [ran] at same
      cases same
      have all : 0 ≤ desk.held token + output := Int.add_nonneg (held token) unsigned
      refine ⟨_, paid, ?_⟩
      rw [← netAfterFee_floor all charged]
      have owned := held token
      exact (grossMinimumForNet_le_iff read all).mp (by omega)

/-- The floor of every direct transaction is the gross minimum, and the floors that guarantee the minimum are those from it on. -/
theorem direct_floor_least :
    (∀ net bps, 0 ≤ net → 0 ≤ bps → bps < 10000 → ∃ gross, grossMinimumForNet net bps = .ok gross ∧ IsLeast (Leaving net bps) gross) ∧
      ∀ viem venues args tx, buildDirectTransaction viem venues args = .ok tx →
        Guarantees venues args tx ∧ ∃ tokenIn tokenOut gross, grossMinimumForNet args.minimumAmountOut args.fee.bps = .ok gross ∧
          buildRoute viem venues args tokenIn tokenOut gross = .ok tx ∧
          (∀ desk output, gross ≤ output → (∀ token, 0 ≤ desk.held token) → (tx.run venues desk output).isSome) ∧
          ∀ floor, 0 ≤ floor → ∃ other, buildRoute viem venues args tokenIn tokenOut floor = .ok other ∧
            (Guarantees venues args other ↔ gross ≤ floor) := by
  constructor
  · intro net bps given charged below
    obtain ⟨gross, read⟩ := grossMinimumForNet_reads given charged below
    exact ⟨gross, read, grossMinimumForNet_least read⟩
  · intro viem venues args tx built
    unfold buildDirectTransaction at built
    iterate 2 obtain ⟨_, _, built⟩ := bind_ok built
    obtain ⟨_, fee, built⟩ := bind_ok built
    iterate 2 obtain ⟨_, _, built⟩ := bind_ok built
    obtain ⟨tokenIn, _, built⟩ := bind_ok built
    obtain ⟨tokenOut, output, built⟩ := bind_ok built
    obtain ⟨_, _, built⟩ := bind_ok built
    obtain ⟨gross, read, built⟩ := bind_ok built
    have charged := (require_ok.mp fee).1
    obtain ⟨own, token, same, runs⟩ := buildRoute_runs output charged built gross
    rw [built] at same
    cases same
    refine ⟨(runs.guarantees_iff read charged (grossMinimumForNet_nonneg read)).mpr le_rfl, tokenIn, tokenOut, gross, read, built, ?_, ?_⟩
    · intro desk output enough held
      obtain ⟨after, ran, _⟩ := runs.pays desk output enough (held token)
      rw [ran]
      rfl
    · intro floor nonneg
      obtain ⟨other, _, rebuilt, others⟩ := buildRoute_runs output charged built floor
      exact ⟨other, rebuilt, others.guarantees_iff read charged nonneg⟩

/-! A sale of a token for the native coin through one v3 pool, with a fee of 25 bps. -/

def saleNative : String := "0x1111111111111111111111111111111111111111"

def saleRouter : String := "0x2222222222222222222222222222222222222222"

def saleToken : String := "0x4444444444444444444444444444444444444444"

def saleRecipient : String := "0x5555555555555555555555555555555555555555"

def saleReceiver : String := "0x6666666666666666666666666666666666666666"

def saleViem : Viem := ⟨fun address => some address, fun _ => true, fun _ => none, fun _ => none⟩

def saleVenues : Venues where
  WNATIVE := saleNative
  V3_SWAP_ROUTER := saleRouter
  CL_SWAP_ROUTER := "0x3333333333333333333333333333333333333333"
  connectors := []
  uniV3Fees := [3000]
  homeV2 := none
  keyedBy := .fee
  homeClFees := []
  uniV4 := none

def saleArgs : DirectArgs where
  tokenIn := saleToken
  tokenOut := Solver.NATIVE
  amountIn := 500
  minimumAmountOut := 1000
  recipient := saleRecipient
  deadline := 60
  route := .v3 3000 none none
  fee := ⟨25, saleReceiver⟩

def saleTransaction : DirectTransaction where
  target := saleRouter
  data := .multicall (some 60) [.exactInputSingle saleToken saleNative 3000 saleRouter none 500 1002 0, .unwrapWETH9 1002 saleRecipient (some ⟨25, saleReceiver⟩)]
  value := 0
  spender := some saleRouter
  inputToken := some saleToken
  outputToken := none
  permit2Operator := none

theorem direct_floor_least_sale :
    (∃ gross, grossMinimumForNet 1000 25 = .ok gross ∧ IsLeast (Leaving 1000 25) gross) ∧ Guarantees saleVenues saleArgs saleTransaction := by
  constructor
  · exact direct_floor_least.1 1000 25 (by decide) (by decide) (by decide)
  · exact (direct_floor_least.2 saleViem saleVenues saleArgs saleTransaction (by decide +kernel)).1

end LpTerminal.Swap
