import LpTerminal.Emerging.SwapStepExact

/-!
The driver that replays a pool's stored events around a shadow position, and the spans that its swaps walk.
-/

namespace LpTerminal.Emerging.Replay

structure SwapEvent where
  amount0 : ℤ
  amount1 : ℤ
  sqrtPriceX96 : ℕ
  liquidity : ℕ
  tick : ℤ

inductive StoredEvent
  | mint (tickLower tickUpper : ℤ) (amount : ℕ)
  | burn (tickLower tickUpper : ℤ) (amount : ℕ)
  | swap (event : SwapEvent)
  | other (kind : String)

structure VenueRow where
  feePpm : ℕ
  proto : String

structure ShadowArgs where
  tickLower : ℤ
  tickUpper : ℤ
  liquidity : ℕ
  entryAfterSwaps : Option ℕ

inductive Integrity
  | exact
  | mismatch
  | unsupported
  deriving DecidableEq

inductive ShadowExit
  | rangeExit
  | endOfHistory
  deriving DecidableEq

structure ShadowLedger where
  poolKey : String
  integrity : Integrity
  unsupportedReason : Option String
  swapsReplayed : ℕ
  entryActiveLiquidity : Option ℕ
  fees0 : ℤ
  fees1 : ℤ
  principal0 : ℕ
  principal1 : ℕ
  exit : Option ShadowExit
  deriving DecidableEq

def unsupported (poolKey reason : String) : ShadowLedger := ⟨poolKey, .unsupported, some reason, 0, none, 0, 0, 0, 0, none⟩

structure ShadowRun where
  s : ReplayState
  swapsSeen : ℕ
  entered : Bool
  entryActiveLiquidity : Option ℕ
  fees0 : ℤ
  fees1 : ℤ

inductive Turn
  | goes (run : ShadowRun)
  | mismatch (run : ShadowRun)
  | exits (run : ShadowRun) (out : ExitAmounts)

def enters (args : ShadowArgs) (run : ShadowRun) : Bool := run.entered || decide (args.entryAfterSwaps.getD 0 ≤ run.swapsSeen)

def replaySwap (feePpm : ℤ) (args : ShadowArgs) (run : ShadowRun) (e : SwapEvent) : Replayed Turn := do
  let seen := { run with entered := enters args run, swapsSeen := run.swapsSeen + 1 }
  if !seen.entered then return .goes seen
  else
    let (s, r) ← applySwap seen.s e.amount0 e.amount1 e.sqrtPriceX96 e.liquidity e.tick feePpm
    let next := { seen with
      s := s
      entryActiveLiquidity := seen.entryActiveLiquidity.or (some e.liquidity)
      fees0 := seen.fees0 + r.fee0
      fees1 := seen.fees1 + r.fee1 }
    if r.reconstructedLiquidity ≠ e.liquidity then return .mismatch next
    else
      let sqrtB ← getSqrtRatioAtTick args.tickUpper
      let sqrtA ← getSqrtRatioAtTick args.tickLower
      if sqrtB ≤ s.sqrtP ∨ s.sqrtP < sqrtA then
        let (s, out) ← exitPosition s
        return .exits { next with s := s } out
      else return .goes next

def replayEvent (feePpm : ℤ) (args : ShadowArgs) (run : ShadowRun) : StoredEvent → Replayed Turn
  | .mint lower upper amount => (applyMint run.s lower upper amount).map fun s => .goes { run with s := s }
  | .burn lower upper amount => (applyBurn run.s lower upper amount).map fun s => .goes { run with s := s }
  | .swap e => replaySwap feePpm args run e
  | .other _ => .ok (.goes run)

def replayEvents (feePpm : ℤ) (args : ShadowArgs) : List StoredEvent → ShadowRun → Replayed Turn
  | [], run => .ok (.goes run)
  | event :: rest, run => do
    match ← replayEvent feePpm args run event with
    | .goes next => replayEvents feePpm args rest next
    | stopped => return stopped

def sawSwap : List StoredEvent → Except String Bool
  | [] => .ok false
  | .mint .. :: rest => sawSwap rest
  | .burn .. :: rest => sawSwap rest
  | .swap _ :: _ => .ok true
  | .other kind :: _ => .error ("unexpected pre-swap event kind " ++ kind)

def startsWithMint : List StoredEvent → Bool
  | .mint .. :: _ => true
  | _ => false

def ShadowRun.ledger (run : ShadowRun) (poolKey : String) (amount0 amount1 : ℕ) (exit : Option ShadowExit) : ShadowLedger :=
  ⟨poolKey, .exact, none, run.swapsSeen, run.entryActiveLiquidity, run.fees0, run.fees1, amount0, amount1, exit⟩

def replayHistory (poolKey : String) (feePpm : ℤ) (events : List StoredEvent) (args : ShadowArgs) : Replayed ShadowLedger := do
  let s ← enterPosition initState args.tickLower args.tickUpper args.liquidity
  match ← replayEvents feePpm args events ⟨s, 0, false, none, 0, 0⟩ with
  | .mismatch run => return ⟨poolKey, .mismatch, none, run.swapsSeen, run.entryActiveLiquidity, 0, 0, 0, 0, none⟩
  | .exits run out => return run.ledger poolKey out.amount0 out.amount1 (some .rangeExit)
  | .goes run =>
    if run.entered then
      let (_, out) ← exitPosition run.s
      return run.ledger poolKey out.amount0 out.amount1 (some .endOfHistory)
    else return run.ledger poolKey 0 0 none

def replayShadowPosition (poolKey : String) (venueRow : Option VenueRow) (events : List StoredEvent) (args : ShadowArgs) : Replayed ShadowLedger :=
  match venueRow.filter fun row => row.proto = "univ3" with
  | none => .ok (unsupported poolKey "venue is not an official static-fee v3 pool")
  | some row =>
    if events = [] then .ok (unsupported poolKey "no canonical events recorded")
    else if !startsWithMint events then .ok (unsupported poolKey "history does not start at the pool’s first mint")
    else
      match sawSwap events with
      | .error reason => .ok (unsupported poolKey reason)
      | .ok false => .ok (unsupported poolKey "no swaps recorded — nothing to attribute")
      | .ok true => replayHistory poolKey row.feePpm events args

/-- A span that a swap walked, with the fee that it paid in its input token. -/
structure Span where
  sqrtFrom : ℤ
  sqrtTo : ℤ
  liquidity : ℤ
  fee : ℤ
  zeroForOne : Bool

def Span.own (args : ShadowArgs) (span : Span) : ℤ :=
  if Mint.ratioAt args.tickLower ≤ min span.sqrtFrom span.sqrtTo ∧ max span.sqrtFrom span.sqrtTo ≤ Mint.ratioAt args.tickUpper then
    span.fee * args.liquidity / (span.liquidity + args.liquidity)
  else 0

def feesOf (fee : Span → ℤ) (zeroForOne : Bool) (spans : List Span) : ℤ := ((spans.filter fun span => span.zeroForOne = zeroForOne).map fee).sum

def walkSpans (feePpm sqrtPriceX96 : ℤ) (zeroForOne : Bool) : ℕ → Walk → List Span
  | 0, _ => []
  | rounds + 1, w =>
    if 0 < w.remaining ∧ w.state.liquidity ≠ 0 then
      match nextInitializedTick w.state.ticks w.state.tick zeroForOne with
      | none =>
        match walkSpan feePpm zeroForOne sqrtPriceX96 w with
        | .error _ => []
        | .ok (_, step) => [⟨w.state.sqrtP, step.sqrtNext, w.state.liquidity, step.feeAmount, zeroForOne⟩]
      | some targetTick =>
        match getSqrtRatioAtTick targetTick with
        | .error _ => []
        | .ok sqrtTarget =>
          match walkSpan feePpm zeroForOne sqrtTarget w with
          | .error _ => []
          | .ok (walked, step) =>
            let left := { walked with remaining := walked.remaining - (step.amountIn + step.feeAmount) }
            ⟨w.state.sqrtP, step.sqrtNext, w.state.liquidity, step.feeAmount, zeroForOne⟩ ::
              walkSpans feePpm sqrtPriceX96 zeroForOne rounds (if step.sqrtNext = sqrtTarget then crossTick zeroForOne targetTick left else left)
    else []

def SwapEvent.zeroForOne (e : SwapEvent) : Bool := decide (0 < e.amount0)

def SwapEvent.input (e : SwapEvent) : ℤ := if e.zeroForOne then e.amount0 else e.amount1

def swapSpans (feePpm : ℤ) (s : ReplayState) (e : SwapEvent) : List Span :=
  if s.sqrtP = 0 ∨ s.liquidity = 0 then [] else walkSpans feePpm e.sqrtPriceX96 e.zeroForOne 10000 ⟨s, e.input, 0, 0, s.liquidity⟩

def appliedSwap (args : ShadowArgs) (run : ShadowRun) : StoredEvent → List (ReplayState × SwapEvent)
  | .swap e => if enters args run then [(run.s, e)] else []
  | _ => []

def replayedSwaps (feePpm : ℤ) (args : ShadowArgs) : List StoredEvent → ShadowRun → List (ReplayState × SwapEvent)
  | [], _ => []
  | event :: rest, run =>
    appliedSwap args run event ++
      match replayEvent feePpm args run event with
      | .ok (.goes next) => replayedSwaps feePpm args rest next
      | _ => []

def shadowStart (args : ShadowArgs) : ShadowRun :=
  ⟨{ initState with position := ⟨args.tickLower, args.tickUpper, args.liquidity, true, 0, 0⟩ }, 0, false, none, 0, 0⟩

def spansOf (feePpm : ℤ) (swaps : List (ReplayState × SwapEvent)) : List Span := swaps.flatMap fun (s, e) => swapSpans feePpm s e

def priceAfter (price : ℤ) (swaps : List (ReplayState × SwapEvent)) : ℤ := swaps.foldl (fun _ (_, e) => e.sqrtPriceX96) price

end LpTerminal.Emerging.Replay
