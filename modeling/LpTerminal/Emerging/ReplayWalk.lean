import LpTerminal.Lib.SwapLoop
import LpTerminal.Lib.Trace
import LpTerminal.Mint.TickMath

/-!
The replay engine: a pool's tick state from its events, the walk of a swap over the tick map, and the shadow position that earns
its share of the spans' fees.
-/

namespace LpTerminal.Emerging.Replay

open ConcentratedPool (PoolEvent)

inductive ReplayError
  | tickOutOfRange
  | nonPositiveDenominator
  | exceededSpans
  | overshotInput
  | alreadyEntered
  | notEntered
  deriving DecidableEq

abbrev Replayed := Except ReplayError

def FEE_DENOMINATOR : ℤ := 1000000

def Q96 : ℤ := 2 ^ 96

def getSqrtRatioAtTick (tick : ℤ) : Replayed ℤ :=
  match Mint.getSqrtRatioAtTick tick with
  | some ratio => .ok ratio
  | none => .error .tickOutOfRange

def mulDivRoundingUp (a b d : ℤ) : ℤ := (a * b + d - 1).tdiv d

def divUp (a d : ℤ) : ℤ := (a + d - 1).tdiv d

def amount0Delta (sqrtA sqrtB liquidity : ℤ) (roundUp : Bool) : ℤ :=
  let (sqrtA, sqrtB) := if sqrtB < sqrtA then (sqrtB, sqrtA) else (sqrtA, sqrtB)
  if liquidity = 0 ∨ sqrtA = sqrtB then 0
  else if roundUp then divUp (mulDivRoundingUp (liquidity * 2 ^ 96) (sqrtB - sqrtA) sqrtB) sqrtA
  else ((liquidity * 2 ^ 96 * (sqrtB - sqrtA)).tdiv sqrtB).tdiv sqrtA

def amount1Delta (sqrtA sqrtB liquidity : ℤ) (roundUp : Bool) : ℤ :=
  let (sqrtA, sqrtB) := if sqrtB < sqrtA then (sqrtB, sqrtA) else (sqrtA, sqrtB)
  if roundUp then mulDivRoundingUp liquidity (sqrtB - sqrtA) Q96 else (liquidity * (sqrtB - sqrtA)).tdiv Q96

def nextSqrtFromAmount0 (sqrtP liquidity amount : ℤ) (add : Bool) : Replayed ℤ :=
  let numerator1 := liquidity * 2 ^ 96
  let denominator := if add then numerator1 + amount * sqrtP else numerator1 - amount * sqrtP
  if denominator ≤ 0 then .error .nonPositiveDenominator else .ok (mulDivRoundingUp numerator1 sqrtP denominator)

def nextSqrtFromAmount1 (sqrtP liquidity amount : ℤ) (add : Bool) : ℤ :=
  if add then sqrtP + (amount * 2 ^ 96).tdiv liquidity else sqrtP - (amount * 2 ^ 96).tdiv liquidity

structure SwapStep where
  sqrtNext : ℤ
  /-- Input without the fee. -/
  amountIn : ℤ
  amountOut : ℤ
  feeAmount : ℤ
  deriving DecidableEq

def stepFee (amountRemaining feePpm : ℤ) : ℤ := mulDivRoundingUp amountRemaining feePpm FEE_DENOMINATOR

def cappedFee (amountRemaining amountIn feeAmount : ℤ) : ℤ :=
  let capped := if amountRemaining < amountIn + feeAmount then amountRemaining - amountIn else feeAmount
  if capped < 0 then 0 else capped

def computeSwapStep (sqrtCurrent sqrtTarget liquidity amountRemaining feePpm : ℤ) : Replayed SwapStep :=
  let feeAmount := stepFee amountRemaining feePpm
  let amountRemainingLessFee := amountRemaining - feeAmount
  if sqrtTarget ≤ sqrtCurrent then
    let amount0Remaining := amount0Delta sqrtTarget sqrtCurrent liquidity false
    if amount0Remaining ≤ amountRemainingLessFee ∧ 0 < amount0Remaining then
      let amountIn := amount0Delta sqrtTarget sqrtCurrent liquidity true
      .ok ⟨sqrtTarget, amountIn, amount1Delta sqrtTarget sqrtCurrent liquidity false, cappedFee amountRemaining amountIn feeAmount⟩
    else
      -- `add` is false here, so the price goes up
      match nextSqrtFromAmount0 sqrtCurrent liquidity amountRemainingLessFee false with
      | .error error => .error error
      | .ok sqrtNext =>
        let amountIn := amount0Delta sqrtNext sqrtCurrent liquidity true
        .ok ⟨sqrtNext, amountIn, amount1Delta sqrtNext sqrtCurrent liquidity false, cappedFee amountRemaining amountIn feeAmount⟩
  else
    let amount1Remaining := amount1Delta sqrtCurrent sqrtTarget liquidity false
    if amount1Remaining ≤ amountRemainingLessFee ∧ 0 < amount1Remaining then
      let amountIn := amount1Delta sqrtCurrent sqrtTarget liquidity true
      .ok ⟨sqrtTarget, amountIn, amount0Delta sqrtCurrent sqrtTarget liquidity false, cappedFee amountRemaining amountIn feeAmount⟩
    else
      let sqrtNext := nextSqrtFromAmount1 sqrtCurrent liquidity amountRemainingLessFee true
      let amountIn := amount1Delta sqrtCurrent sqrtNext liquidity true
      .ok ⟨sqrtNext, amountIn, amount0Delta sqrtCurrent sqrtNext liquidity false, cappedFee amountRemaining amountIn feeAmount⟩

/-- `liquidityNet` by tick. -/
abbrev TickMap := Table (fun row : ℤ × ℤ => row.1)

/-- `ticks.get(tick) ?? 0n`. -/
def liquidityNet (ticks : TickMap) (tick : ℤ) : ℤ := ((ticks.get? tick).map Prod.snd).getD 0

def addNet (ticks : TickMap) (tick amount : ℤ) : TickMap := ticks.put (tick, liquidityNet ticks tick + amount)

def nearer (zeroForOne : Bool) (tick best : ℤ) : Bool := if zeroForOne then best < tick else tick < best

def skips (zeroForOne : Bool) (origin tick : ℤ) : Bool := if zeroForOne then origin ≤ tick else tick ≤ origin

def nextInitializedTick (ticks : TickMap) (origin : ℤ) (zeroForOne : Bool) : Option ℤ :=
  ticks.rows.foldl
    (fun (best : Option ℤ) (row : ℤ × ℤ) =>
      if skips zeroForOne origin row.1 then best
      else if row.2 = 0 then best
      else
        match best with
        | none => some row.1
        | some t => if nearer zeroForOne row.1 t then some row.1 else some t)
    none

structure VirtualPosition where
  tickLower : ℤ
  tickUpper : ℤ
  liquidity : ℕ
  entered : Bool
  owed0 : ℤ
  owed1 : ℤ

structure ReplayState where
  sqrtP : ℤ
  tick : ℤ
  liquidity : ℤ
  ticks : TickMap
  position : VirtualPosition
  swaps : ℕ

def initState : ReplayState := ⟨0, 0, 0, .empty, ⟨0, 0, 0, false, 0, 0⟩, 0⟩

/-- A mint of `amount`, or with a negative one a burn. -/
def shiftLiquidity (s : ReplayState) (tickLower tickUpper amount : ℤ) : Replayed ReplayState := do
  let ticks := addNet (addNet s.ticks tickLower amount) tickUpper (-amount)
  let sqrtA ← getSqrtRatioAtTick tickLower
  let sqrtB ← getSqrtRatioAtTick tickUpper
  return { s with ticks := ticks, liquidity := if sqrtA ≤ s.sqrtP ∧ s.sqrtP < sqrtB then s.liquidity + amount else s.liquidity }

def applyMint (s : ReplayState) (tickLower tickUpper : ℤ) (amount : ℕ) : Replayed ReplayState := shiftLiquidity s tickLower tickUpper amount

def applyBurn (s : ReplayState) (tickLower tickUpper : ℤ) (amount : ℕ) : Replayed ReplayState := shiftLiquidity s tickLower tickUpper (-amount)

def enterPosition (s : ReplayState) (tickLower tickUpper : ℤ) (liquidity : ℕ) : Replayed ReplayState :=
  if s.position.entered then .error .alreadyEntered
  else .ok { s with position := ⟨tickLower, tickUpper, liquidity, true, 0, 0⟩ }

structure ExitAmounts where
  amount0 : ℕ
  amount1 : ℕ
  fee0 : ℤ
  fee1 : ℤ

def exitPosition (s : ReplayState) : Replayed (ReplayState × ExitAmounts) := do
  let p := s.position
  if !p.entered then .error .notEntered
  else
    let sqrtA ← getSqrtRatioAtTick p.tickLower
    let sqrtB ← getSqrtRatioAtTick p.tickUpper
    let amounts := Mint.getAmountsForLiquidity s.sqrtP.toNat sqrtA.toNat sqrtB.toNat p.liquidity
    let s ← applyBurn s p.tickLower p.tickUpper p.liquidity
    return ({ s with position := { p with liquidity := 0, entered := false } }, ⟨amounts.amount0, amounts.amount1, p.owed0, p.owed1⟩)

def creditPosition (p : VirtualPosition) (sqrtFrom sqrtTo spanLiquidity feeAmount : ℤ) : Replayed VirtualPosition := do
  if !p.entered || p.liquidity = 0 || feeAmount = 0 then return p
  else
    let sqrtA ← getSqrtRatioAtTick p.tickLower
    let sqrtB ← getSqrtRatioAtTick p.tickUpper
    if min sqrtFrom sqrtTo < sqrtA ∨ sqrtB < max sqrtFrom sqrtTo then return p
    else
      let share := (feeAmount * p.liquidity).tdiv (spanLiquidity + p.liquidity)
      return if sqrtTo ≤ sqrtFrom then { p with owed0 := p.owed0 + share } else { p with owed1 := p.owed1 + share }

/-- What the loop of `applySwap` holds. -/
structure Walk where
  state : ReplayState
  remaining : ℤ
  fee0 : ℤ
  fee1 : ℤ
  reconstructedLiquidity : ℤ

def walkSpan (feePpm : ℤ) (zeroForOne : Bool) (sqrtTarget : ℤ) (w : Walk) : Replayed (Walk × SwapStep) := do
  let step ← computeSwapStep w.state.sqrtP sqrtTarget w.state.liquidity w.remaining feePpm
  let position ← creditPosition w.state.position w.state.sqrtP step.sqrtNext w.state.liquidity step.feeAmount
  return ({ w with
    state := { w.state with position := position, sqrtP := step.sqrtNext }
    fee0 := w.fee0 + if zeroForOne then step.feeAmount else 0
    fee1 := w.fee1 + if zeroForOne then 0 else step.feeAmount }, step)

def crossTick (zeroForOne : Bool) (targetTick : ℤ) (w : Walk) : Walk :=
  let net := liquidityNet w.state.ticks targetTick
  let delta := if zeroForOne then -net else net
  { w with
    reconstructedLiquidity := w.reconstructedLiquidity + delta
    state := { w.state with
      liquidity := w.state.liquidity + delta
      tick := if zeroForOne then targetTick - 1 else targetTick } }

def walk (feePpm sqrtPriceX96 eventTick : ℤ) (zeroForOne : Bool) : ℕ → Walk → Replayed Walk
  | 0, w => if 0 < w.remaining then .error .exceededSpans else .ok w
  | rounds + 1, w =>
    if 0 < w.remaining then
      -- a region without liquidity cannot price a move
      if w.state.liquidity = 0 then .ok w
      else
        match nextInitializedTick w.state.ticks w.state.tick zeroForOne with
        | none => do
          let (w, _) ← walkSpan feePpm zeroForOne sqrtPriceX96 w
          return { w with state := { w.state with tick := eventTick }, remaining := 0 }
        | some targetTick => do
          let sqrtTarget ← getSqrtRatioAtTick targetTick
          let (w, step) ← walkSpan feePpm zeroForOne sqrtTarget w
          let remaining := w.remaining - (step.amountIn + step.feeAmount)
          if remaining < 0 then .error .overshotInput
          else
            let w := { w with remaining := remaining }
            walk feePpm sqrtPriceX96 eventTick zeroForOne rounds (if step.sqrtNext = sqrtTarget then crossTick zeroForOne targetTick w else w)
    else .ok w

structure SwapResult where
  fee0 : ℤ
  fee1 : ℤ
  reconstructedLiquidity : ℤ

def adopt (s : ReplayState) (sqrtPriceX96 liquidity tick : ℤ) : ReplayState :=
  { s with sqrtP := sqrtPriceX96, tick := tick, liquidity := liquidity, swaps := s.swaps + 1 }

def applySwap (s : ReplayState) (amount0 amount1 sqrtPriceX96 liquidity tick feePpm : ℤ) : Replayed (ReplayState × SwapResult) :=
  let zeroForOne := decide (0 < amount0)
  if s.sqrtP = 0 ∨ s.liquidity = 0 then .ok (adopt s sqrtPriceX96 liquidity tick, ⟨0, 0, liquidity⟩)
  else do
    let w ← walk feePpm sqrtPriceX96 tick zeroForOne 10000 ⟨s, if zeroForOne then amount0 else amount1, 0, 0, s.liquidity⟩
    return (adopt w.state sqrtPriceX96 liquidity tick, ⟨w.fee0, w.fee1, w.reconstructedLiquidity⟩)

/-- The driver applies an event, passes over a swap before the entry, and enters and leaves the shadow position. -/
inductive ReplayStep
  | apply (event : PoolEvent)
  | skip
  | enter (tickLower tickUpper : ℤ) (liquidity : ℕ)
  | exit

def replayStep (feePpm : ℤ) (s : ReplayState) : ReplayStep → Replayed (ReplayState × Option SwapResult)
  | .apply (.mint lower upper amount) => (applyMint s lower upper amount).map fun s => (s, none)
  | .apply (.burn lower upper amount) => (applyBurn s lower upper amount).map fun s => (s, none)
  | .apply (.swap amount0 amount1 sqrtPriceX96 liquidity tick) =>
    (applySwap s amount0 amount1 sqrtPriceX96 liquidity tick feePpm).map fun (s, result) => (s, some result)
  | .skip => .ok (s, none)
  | .enter lower upper liquidity => (enterPosition s lower upper liquidity).map fun s => (s, none)
  | .exit => (exitPosition s).map fun (s, _) => (s, none)

variable {ticks : TickMap} {zeroForOne : Bool} {origin t : ℤ}

/-- The net liquidity of the ticks up to `t`: what is active there. -/
def netBelow (ticks : TickMap) (t : ℤ) : ℤ := ticks.total (fun _ => true) fun row => if row.1 ≤ t then row.2 else 0

def netTicks (ticks : TickMap) : List ℤ := (ticks.rows.filter fun row => row.2 ≠ 0).map Prod.fst

theorem netBelow_add {amount : ℤ} : netBelow (addNet ticks origin amount) t = netBelow ticks t + if origin ≤ t then amount else 0 := by
  have put := @Table.total_put_all _ _ _ (fun row : ℤ × ℤ => row.1) _ _ ticks (fun row => if row.1 ≤ t then row.2 else 0)
    (origin, liquidityNet ticks origin + amount)
  have whole := @Table.total_remove _ _ _ (fun row : ℤ × ℤ => row.1) _ _ ticks (fun row => if row.1 ≤ t then row.2 else 0) origin
  have old : ((ticks.get? origin).map fun row => if row.1 ≤ t then row.2 else 0).getD 0 = if origin ≤ t then liquidityNet ticks origin else 0 := by
    unfold liquidityNet
    cases read : ticks.get? origin with
    | none => simp
    | some row => rw [← Table.get?_key read]; rfl
  rw [old] at whole
  unfold netBelow addNet
  rw [put, whole]
  dsimp only
  split <;> omega

theorem netBelow_step : netBelow ticks t = netBelow ticks (t - 1) + liquidityNet ticks t := by
  have own : liquidityNet ticks t = ticks.total (fun _ => true) fun row => if row.1 = t then row.2 else 0 := by
    rw [Table.total_ite]
    exact (Table.total_key t).symm
  rw [own]
  unfold netBelow Table.total
  induction ticks.rows.filter fun _ => true with
  | nil => rfl
  | cons row rest ih =>
    simp only [List.map_cons, List.sum_cons, ih]
    split <;> split <;> split <;> omega

theorem mem_netTicks : t ∈ netTicks ticks ↔ ∃ net, (t, net) ∈ ticks.rows ∧ net ≠ 0 := by
  simp [netTicks]

theorem netBelow_clear {a b : ℤ} (clear : ∀ t ∈ netTicks ticks, t ≤ a ↔ t ≤ b) : netBelow ticks a = netBelow ticks b := by
  unfold netBelow Table.total
  refine congrArg List.sum (List.map_congr_left fun row member => ?_)
  have stored := (List.mem_filter.mp member).1
  by_cases empty : row.2 = 0
  · simp [empty]
  · simp only [clear row.1 (mem_netTicks.mpr ⟨row.2, stored, empty⟩)]

theorem netTicks_sorted : (netTicks ticks).Pairwise (· < ·) :=
  List.pairwise_map.mpr (ticks.sorted.filter _)

def past (zeroForOne : Bool) (t : ℤ) : ℤ := if zeroForOne then t - 1 else t

def reaches (zeroForOne : Bool) (origin t : ℤ) : Bool := if zeroForOne then t ≤ origin else origin < t

def ahead (ticks : TickMap) (zeroForOne : Bool) (origin : ℤ) : List ℤ :=
  (if zeroForOne then (netTicks ticks).reverse else netTicks ticks).filter (reaches zeroForOne origin)

theorem mem_ahead : t ∈ ahead ticks zeroForOne origin ↔ t ∈ netTicks ticks ∧ reaches zeroForOne origin t = true := by
  unfold ahead
  rw [List.mem_filter]
  split <;> simp

theorem ahead_sorted : (ahead ticks zeroForOne origin).Pairwise fun first second => reaches zeroForOne (past zeroForOne first) second = true := by
  unfold ahead
  refine List.Pairwise.filter _ ?_
  cases zeroForOne with
  | true =>
    refine List.pairwise_reverse.mpr (netTicks_sorted.imp fun before => ?_)
    simp only [reaches, past, if_true, decide_eq_true_eq]
    omega
  | false =>
    refine netTicks_sorted.imp fun before => ?_
    simpa [reaches, past] using before

theorem reaches_past {first second : ℤ} (here : reaches zeroForOne origin first = true) (later : reaches zeroForOne (past zeroForOne first) second = true) :
    reaches zeroForOne origin second = true := by
  cases zeroForOne <;> simp only [reaches, past, if_true, Bool.false_eq_true, if_false, decide_eq_true_eq] at * <;> omega

theorem not_reaches_past : reaches zeroForOne (past zeroForOne t) t = false := by
  cases zeroForOne <;> simp [reaches, past]

theorem ahead_cons {first : ℤ} {rest : List ℤ} (list : ahead ticks zeroForOne origin = first :: rest) :
    ahead ticks zeroForOne (past zeroForOne first) = rest := by
  have here := (mem_ahead.mp (list ▸ List.mem_cons_self : first ∈ ahead ticks zeroForOne origin)).2
  have sorted := @ahead_sorted ticks zeroForOne origin
  rw [list] at sorted
  have later := (List.pairwise_cons.mp sorted).1
  have narrowed : ahead ticks zeroForOne (past zeroForOne first) = (first :: rest).filter (reaches zeroForOne (past zeroForOne first)) := by
    rw [← list]
    unfold ahead
    rw [List.filter_filter]
    refine List.filter_congr fun t _ => ?_
    cases further : reaches zeroForOne (past zeroForOne first) t with
    | true => simp [reaches_past here further]
    | false => simp
  rw [narrowed, List.filter_cons_of_neg (by rw [not_reaches_past]; decide)]
  exact List.filter_eq_self.mpr later

def candidate (zeroForOne : Bool) (origin : ℤ) (row : ℤ × ℤ) : Prop := skips zeroForOne origin row.1 = false ∧ row.2 ≠ 0

def consider (zeroForOne : Bool) (origin : ℤ) (best : Option ℤ) (row : ℤ × ℤ) : Option ℤ :=
  if skips zeroForOne origin row.1 then best
  else if row.2 = 0 then best
  else
    match best with
    | none => some row.1
    | some t => if nearer zeroForOne row.1 t then some row.1 else some t

theorem nearer_self : nearer zeroForOne t t = false := by cases zeroForOne <;> simp [nearer]

theorem nearer_trans {a b c : ℤ} (first : nearer zeroForOne a b = false) (second : nearer zeroForOne b c = false) :
    nearer zeroForOne a c = false := by
  cases zeroForOne <;> simp only [nearer, if_true, Bool.false_eq_true, if_false, decide_eq_false_iff_not, not_lt] at * <;> omega

theorem consider_found {best : Option ℤ} {row : ℤ × ℤ} (found : consider zeroForOne origin best row = some t) :
    best = some t ∨ (candidate zeroForOne origin row ∧ row.1 = t) := by
  unfold consider at found
  split at found
  · exact Or.inl found
  · rename_i beyond
    split at found
    · exact Or.inl found
    · rename_i some'
      have taken : candidate zeroForOne origin row := ⟨by simpa using beyond, some'⟩
      split at found
      · exact Or.inr ⟨taken, Option.some.inj found⟩
      · split at found
        · exact Or.inr ⟨taken, Option.some.inj found⟩
        · exact Or.inl found

theorem consider_best {best : Option ℤ} {row : ℤ × ℤ} (known : best = some t ∨ (candidate zeroForOne origin row ∧ row.1 = t)) :
    ∃ b, consider zeroForOne origin best row = some b ∧ nearer zeroForOne t b = false := by
  unfold consider
  by_cases skipped : skips zeroForOne origin row.1 = true
  · rw [if_pos skipped]
    rcases known with same | ⟨⟨beyond, -⟩, -⟩
    · exact ⟨t, same, nearer_self⟩
    · rw [skipped] at beyond
      cases beyond
  · rw [if_neg skipped]
    by_cases empty : row.2 = 0
    · rw [if_pos empty]
      rcases known with same | ⟨⟨-, some'⟩, -⟩
      · exact ⟨t, same, nearer_self⟩
      · exact absurd empty some'
    · rw [if_neg empty]
      cases best with
      | none =>
        rcases known with none | ⟨-, rfl⟩
        · cases none
        · exact ⟨row.1, rfl, nearer_self⟩
      | some b =>
        dsimp only
        split
        · rename_i closer
          refine ⟨row.1, rfl, ?_⟩
          rcases known with same | ⟨-, rfl⟩
          · obtain rfl := Option.some.inj same
            cases zeroForOne <;> simp only [nearer, if_true, Bool.false_eq_true, if_false, decide_eq_true_eq, decide_eq_false_iff_not] at * <;> omega
          · exact nearer_self
        · rename_i farther
          refine ⟨b, rfl, ?_⟩
          rcases known with same | ⟨-, rfl⟩
          · obtain rfl := Option.some.inj same
            exact nearer_self
          · simpa using farther

theorem search_found {rows : List (ℤ × ℤ)} {best : Option ℤ} (found : rows.foldl (consider zeroForOne origin) best = some t) :
    best = some t ∨ ∃ row ∈ rows, candidate zeroForOne origin row ∧ row.1 = t := by
  induction rows generalizing best with
  | nil => exact Or.inl found
  | cons row rest ih =>
    rcases ih found with considered | ⟨other, member, taken⟩
    · rcases consider_found considered with same | taken
      · exact Or.inl same
      · exact Or.inr ⟨row, List.mem_cons_self, taken⟩
    · exact Or.inr ⟨other, List.mem_cons_of_mem _ member, taken⟩

theorem search_best {rows : List (ℤ × ℤ)} {best : Option ℤ}
    (known : best = some t ∨ ∃ row ∈ rows, candidate zeroForOne origin row ∧ row.1 = t) :
    ∃ b, rows.foldl (consider zeroForOne origin) best = some b ∧ nearer zeroForOne t b = false := by
  induction rows generalizing best t with
  | nil =>
    rcases known with same | ⟨_, none, _⟩
    · exact ⟨t, same, nearer_self⟩
    · cases none
  | cons row rest ih =>
    have later : (∃ b, consider zeroForOne origin best row = some b ∧ nearer zeroForOne t b = false) ∨
        ∃ other ∈ rest, candidate zeroForOne origin other ∧ other.1 = t := by
      rcases known with same | ⟨other, member, taken⟩
      · exact Or.inl (consider_best (Or.inl same))
      · rcases List.mem_cons.mp member with rfl | inRest
        · exact Or.inl (consider_best (Or.inr taken))
        · exact Or.inr ⟨other, inRest, taken⟩
    rcases later with ⟨b, considered, close⟩ | inRest
    · obtain ⟨c, found, closer⟩ := ih (Or.inl considered)
      exact ⟨c, found, nearer_trans close closer⟩
    · exact ih (Or.inr inRest)

theorem nextInitializedTick_first {first : ℤ} {rest : List ℤ} (list : ahead ticks zeroForOne origin = first :: rest)
    (apart : skips zeroForOne origin first = false) : nextInitializedTick ticks origin zeroForOne = some first := by
  obtain ⟨inside, -⟩ := mem_ahead.mp (list ▸ List.mem_cons_self : first ∈ ahead ticks zeroForOne origin)
  obtain ⟨net, stored, some'⟩ := mem_netTicks.mp inside
  obtain ⟨b, found, closer⟩ := @search_best zeroForOne origin first ticks.rows none (Or.inr ⟨(first, net), stored, ⟨apart, some'⟩, rfl⟩)
  have known : nextInitializedTick ticks origin zeroForOne = some b := found
  rw [known]
  rcases search_found found with none | ⟨row, member, ⟨beyond, other⟩, rfl⟩
  · cases none
  · have reached : row.1 ∈ ahead ticks zeroForOne origin := by
      refine mem_ahead.mpr ⟨mem_netTicks.mpr ⟨row.2, member, other⟩, ?_⟩
      cases zeroForOne <;> simp only [skips, reaches, if_true, Bool.false_eq_true, if_false, decide_eq_true_eq, decide_eq_false_iff_not] at * <;> omega
    rw [list] at reached
    have sorted := @ahead_sorted ticks zeroForOne origin
    rw [list] at sorted
    rcases List.mem_cons.mp reached with same | later
    · rw [same]
    · have beyondFirst := (List.pairwise_cons.mp sorted).1 row.1 later
      cases zeroForOne <;> simp only [nearer, reaches, past, if_true, Bool.false_eq_true, if_false, decide_eq_true_eq, decide_eq_false_iff_not] at * <;> omega

theorem nextInitializedTick_mem {target : ℤ} (found : nextInitializedTick ticks origin zeroForOne = some target) :
    target ∈ netTicks ticks := by
  rcases search_found (show ticks.rows.foldl (consider zeroForOne origin) none = some target from found) with none | ⟨row, member, ⟨-, some'⟩, rfl⟩
  · cases none
  · exact mem_netTicks.mpr ⟨row.2, member, some'⟩

theorem netBelow_past {first : ℤ} {rest : List ℤ} (list : ahead ticks zeroForOne origin = first :: rest) :
    netBelow ticks (past zeroForOne first) =
      netBelow ticks origin + if zeroForOne then -liquidityNet ticks first else liquidityNet ticks first := by
  have sorted := @ahead_sorted ticks zeroForOne origin
  rw [list] at sorted
  have later := (List.pairwise_cons.mp sorted).1
  have here := (mem_ahead.mp (list ▸ List.mem_cons_self : first ∈ ahead ticks zeroForOne origin)).2
  have beyond : ∀ t ∈ netTicks ticks, reaches zeroForOne origin t = true → t = first ∨ reaches zeroForOne (past zeroForOne first) t = true := by
    intro t inside reached
    have met := mem_ahead.mpr ⟨inside, reached⟩
    rw [list] at met
    rcases List.mem_cons.mp met with same | after
    · exact Or.inl same
    · exact Or.inr (later t after)
  have step := @netBelow_step ticks first
  cases zeroForOne with
  | true =>
    simp only [reaches, past, if_true, decide_eq_true_eq] at here beyond ⊢
    have clear : netBelow ticks first = netBelow ticks origin := netBelow_clear fun t inside => by
      have split := beyond t inside
      omega
    omega
  | false =>
    simp only [reaches, past, Bool.false_eq_true, if_false, decide_eq_true_eq] at here beyond ⊢
    have clear : netBelow ticks (first - 1) = netBelow ticks origin := netBelow_clear fun t inside => by
      have split := beyond t inside
      omega
    omega

def lessFee (remaining feePpm : ℤ) : ℤ := remaining - stepFee remaining feePpm

def spanCost (zeroForOne : Bool) (sqrtP target liquidity : ℤ) (roundUp : Bool) : ℤ :=
  if zeroForOne then amount0Delta target sqrtP liquidity roundUp else amount1Delta sqrtP target liquidity roundUp

def onSide (zeroForOne : Bool) (sqrtP target : ℤ) : Prop := if zeroForOne then target ≤ sqrtP else sqrtP < target

def Covers (zeroForOne : Bool) (sqrtP target liquidity remaining feePpm : ℤ) : Prop :=
  onSide zeroForOne sqrtP target ∧ 0 < spanCost zeroForOne sqrtP target liquidity false ∧
    spanCost zeroForOne sqrtP target liquidity false ≤ lessFee remaining feePpm ∧
    spanCost zeroForOne sqrtP target liquidity true ≤ remaining

def leftAfter (zeroForOne : Bool) (sqrtP target liquidity remaining feePpm : ℤ) : ℤ :=
  max 0 (lessFee remaining feePpm - spanCost zeroForOne sqrtP target liquidity true)

def partialPrice (zeroForOne : Bool) (sqrtP liquidity amount : ℤ) : Replayed ℤ :=
  if zeroForOne then nextSqrtFromAmount0 sqrtP liquidity amount false else .ok (nextSqrtFromAmount1 sqrtP liquidity amount true)

def Stops (zeroForOne : Bool) (sqrtP target liquidity remaining feePpm : ℤ) : Prop :=
  onSide zeroForOne sqrtP target ∧
    ¬ (spanCost zeroForOne sqrtP target liquidity false ≤ lessFee remaining feePpm ∧ 0 < spanCost zeroForOne sqrtP target liquidity false) ∧
    ∃ next ∈ (partialPrice zeroForOne sqrtP liquidity (lessFee remaining feePpm)).toOption, next ≠ target ∧
      lessFee remaining feePpm ≤ spanCost zeroForOne sqrtP next liquidity true ∧ spanCost zeroForOne sqrtP next liquidity true ≤ remaining

def Prices (sqrtP sqrtPriceX96 liquidity remaining feePpm : ℤ) : Prop :=
  sqrtPriceX96 ≤ sqrtP →
    (0 < amount0Delta sqrtPriceX96 sqrtP liquidity false ∧ amount0Delta sqrtPriceX96 sqrtP liquidity false ≤ lessFee remaining feePpm) ∨
      lessFee remaining feePpm * sqrtP < liquidity * 2 ^ 96

instance (zeroForOne : Bool) (sqrtP target : ℤ) : Decidable (onSide zeroForOne sqrtP target) := inferInstanceAs (Decidable (ite _ _ _))

instance (zeroForOne : Bool) (sqrtP target liquidity remaining feePpm : ℤ) : Decidable (Covers zeroForOne sqrtP target liquidity remaining feePpm) :=
  inferInstanceAs (Decidable (_ ∧ _))

instance (zeroForOne : Bool) (sqrtP target liquidity remaining feePpm : ℤ) : Decidable (Stops zeroForOne sqrtP target liquidity remaining feePpm) :=
  inferInstanceAs (Decidable (onSide zeroForOne sqrtP target ∧ _ ∧ ∃ next ∈ Except.toOption _, _))

instance (sqrtP sqrtPriceX96 liquidity remaining feePpm : ℤ) : Decidable (Prices sqrtP sqrtPriceX96 liquidity remaining feePpm) :=
  inferInstanceAs (Decidable (_ → _ ∨ _))

variable {sqrtP target liquidity remaining feePpm amountIn : ℤ}

theorem stepFee_nonneg (given : 0 ≤ remaining) (fee : 0 ≤ feePpm) : 0 ≤ stepFee remaining feePpm := by
  unfold stepFee mulDivRoundingUp
  have product : 0 ≤ remaining * feePpm := mul_nonneg given fee
  exact Int.tdiv_nonneg (by unfold FEE_DENOMINATOR; omega) (by decide)

theorem left_covered (given : 0 ≤ stepFee remaining feePpm) (paid : amountIn ≤ remaining) :
    remaining - (amountIn + cappedFee remaining amountIn (stepFee remaining feePpm)) = max 0 (lessFee remaining feePpm - amountIn) := by
  unfold cappedFee lessFee
  dsimp only
  split <;> split <;> omega

theorem left_stopped (given : 0 ≤ stepFee remaining feePpm) (least : lessFee remaining feePpm ≤ amountIn) (paid : amountIn ≤ remaining) :
    remaining - (amountIn + cappedFee remaining amountIn (stepFee remaining feePpm)) = 0 := by
  rw [left_covered given paid]
  omega

theorem computeSwapStep_covers (given : 0 ≤ remaining) (fee : 0 ≤ feePpm) (covers : Covers zeroForOne sqrtP target liquidity remaining feePpm) :
    ∃ step, computeSwapStep sqrtP target liquidity remaining feePpm = .ok step ∧ step.sqrtNext = target ∧
      remaining - (step.amountIn + step.feeAmount) = leftAfter zeroForOne sqrtP target liquidity remaining feePpm := by
  obtain ⟨side, some', enough, paid⟩ := covers
  have charged := left_covered (stepFee_nonneg given fee) paid
  unfold computeSwapStep
  dsimp only
  cases zeroForOne with
  | true =>
    simp only [onSide, spanCost, lessFee, if_true] at side some' enough
    rw [if_pos side, if_pos ⟨enough, some'⟩]
    exact ⟨_, rfl, rfl, charged⟩
  | false =>
    simp only [onSide, spanCost, lessFee, Bool.false_eq_true, if_false] at side some' enough
    rw [if_neg (not_le.mpr side), if_pos ⟨enough, some'⟩]
    exact ⟨_, rfl, rfl, charged⟩

theorem computeSwapStep_stops (given : 0 ≤ remaining) (fee : 0 ≤ feePpm) (stops : Stops zeroForOne sqrtP target liquidity remaining feePpm) :
    ∃ step, computeSwapStep sqrtP target liquidity remaining feePpm = .ok step ∧ step.sqrtNext ≠ target ∧
      remaining - (step.amountIn + step.feeAmount) = 0 := by
  obtain ⟨side, short, next, priced, apart, least, paid⟩ := stops
  have charged := left_stopped (stepFee_nonneg given fee) least paid
  unfold computeSwapStep
  dsimp only
  cases zeroForOne with
  | true =>
    have moved : nextSqrtFromAmount0 sqrtP liquidity (remaining - stepFee remaining feePpm) false = .ok next := by
      cases reached : nextSqrtFromAmount0 sqrtP liquidity (remaining - stepFee remaining feePpm) false with
      | error => simp [partialPrice, lessFee, reached, Except.toOption] at priced
      | ok other =>
        have same : other = next := by simpa [partialPrice, lessFee, reached, Except.toOption] using priced
        rw [same]
    simp only [onSide, spanCost, lessFee, if_true] at side short
    rw [if_pos side, if_neg short, moved]
    exact ⟨_, rfl, apart, charged⟩
  | false =>
    have moved : nextSqrtFromAmount1 sqrtP liquidity (remaining - stepFee remaining feePpm) true = next := by
      simpa [partialPrice, lessFee, Except.toOption] using priced
    simp only [onSide, spanCost, lessFee, Bool.false_eq_true, if_false] at side short
    rw [if_neg (not_le.mpr side), if_neg short, moved]
    exact ⟨_, rfl, apart, charged⟩

theorem computeSwapStep_prices {sqrtPriceX96 : ℤ} (prices : Prices sqrtP sqrtPriceX96 liquidity remaining feePpm) :
    ∃ step, computeSwapStep sqrtP sqrtPriceX96 liquidity remaining feePpm = .ok step := by
  unfold computeSwapStep
  dsimp only
  split
  · rename_i below
    split
    · exact ⟨_, rfl⟩
    · rename_i short
      rcases prices below with ⟨some', enough⟩ | small
      · exact absurd ⟨enough, some'⟩ short
      · unfold nextSqrtFromAmount0
        unfold lessFee at small
        simp only [Bool.false_eq_true, if_false]
        rw [if_neg (by omega)]
        exact ⟨_, rfl⟩
  · split <;> exact ⟨_, rfl⟩

def TickInRange (t : ℤ) : Prop := -(Mint.maxTick : ℤ) ≤ t ∧ t ≤ Mint.maxTick

def ShadowInRange (p : VirtualPosition) : Prop := p.entered = true → TickInRange p.tickLower ∧ TickInRange p.tickUpper

def SameShadow (p q : VirtualPosition) : Prop := q = { p with owed0 := q.owed0, owed1 := q.owed1 }

theorem getSqrtRatioAtTick_ok (inRange : TickInRange t) : getSqrtRatioAtTick t = .ok (Mint.ratioAt t) := by
  unfold getSqrtRatioAtTick Mint.ratioAt
  rw [Mint.getSqrtRatioAtTick_eq inRange.1 inRange.2]
  rfl

theorem creditPosition_ok {p : VirtualPosition} (shadow : ShadowInRange p) (sqrtFrom sqrtTo spanLiquidity feeAmount : ℤ) :
    ∃ q, creditPosition p sqrtFrom sqrtTo spanLiquidity feeAmount = .ok q ∧ SameShadow p q := by
  unfold creditPosition
  split
  · exact ⟨p, rfl, rfl⟩
  · rename_i credited
    obtain ⟨lower, upper⟩ := shadow (by simp only [Bool.or_eq_true, not_or] at credited; simpa using credited.1.1)
    rw [getSqrtRatioAtTick_ok lower, getSqrtRatioAtTick_ok upper]
    simp only [bind, Except.bind, pure, Except.pure]
    split
    · exact ⟨p, rfl, rfl⟩
    · split <;> exact ⟨_, rfl, rfl⟩

theorem SameShadow.trans {p q r : VirtualPosition} (first : SameShadow p q) (second : SameShadow q r) : SameShadow p r := by
  unfold SameShadow at *
  rw [second, first]

theorem SameShadow.inRange {p q : VirtualPosition} (same : SameShadow p q) (shadow : ShadowInRange p) : ShadowInRange q := by
  unfold SameShadow at same
  rw [same]
  exact shadow

def passes (zeroForOne : Bool) (eventTick t : ℤ) : Bool := if zeroForOne then eventTick < t else t ≤ eventTick

section Charged

variable (feePpm sqrtPriceX96 eventTick : ℤ) (zeroForOne : Bool) (ticks : TickMap)

def SpanEnds (sqrtP liquidity remaining : ℤ) : Option ℤ → Prop
  | none => Prices sqrtP sqrtPriceX96 liquidity remaining feePpm
  | some target => Stops zeroForOne sqrtP (Mint.ratioAt target) liquidity remaining feePpm

/-- No tick is left between here and the event's, and what is left of the input, where there is liquidity, is
taken by a span that does not reach the tick that the walk looks for. -/
def Rests (origin sqrtP liquidity remaining : ℤ) : Prop :=
  (∀ t ∈ netTicks ticks, t ≤ origin ↔ t ≤ eventTick) ∧
    (0 < remaining → liquidity ≠ 0 →
      SpanEnds feePpm sqrtPriceX96 zeroForOne sqrtP liquidity remaining (nextInitializedTick ticks origin zeroForOne))

/-- With the fee taken of all that remains in every span, the input pays for each tick that the event passed, and
then rests. The walk is at none of these ticks when it looks for it. -/
def Charged : List ℤ → ℤ → ℤ → ℤ → ℤ → Prop
  | [], origin, sqrtP, liquidity, remaining => Rests feePpm sqrtPriceX96 eventTick zeroForOne ticks origin sqrtP liquidity remaining
  | target :: rest, origin, sqrtP, liquidity, remaining =>
    if passes zeroForOne eventTick target then
      skips zeroForOne origin target = false ∧ 0 < remaining ∧ liquidity ≠ 0 ∧
        Covers zeroForOne sqrtP (Mint.ratioAt target) liquidity remaining feePpm ∧
        Charged rest (past zeroForOne target) (Mint.ratioAt target)
          (liquidity + if zeroForOne then -liquidityNet ticks target else liquidityNet ticks target)
          (leftAfter zeroForOne sqrtP (Mint.ratioAt target) liquidity remaining feePpm)
    else Rests feePpm sqrtPriceX96 eventTick zeroForOne ticks origin sqrtP liquidity remaining

instance (sqrtP liquidity remaining : ℤ) : ∀ target, Decidable (SpanEnds feePpm sqrtPriceX96 zeroForOne sqrtP liquidity remaining target)
  | none => inferInstanceAs (Decidable (Prices sqrtP sqrtPriceX96 liquidity remaining feePpm))
  | some target => inferInstanceAs (Decidable (Stops zeroForOne sqrtP (Mint.ratioAt target) liquidity remaining feePpm))

instance (origin sqrtP liquidity remaining : ℤ) :
    Decidable (Rests feePpm sqrtPriceX96 eventTick zeroForOne ticks origin sqrtP liquidity remaining) :=
  inferInstanceAs (Decidable (_ ∧ (0 < remaining → liquidity ≠ 0 → SpanEnds _ _ _ _ _ _ _)))

instance decideCharged : ∀ targets origin sqrtP liquidity remaining,
    Decidable (Charged feePpm sqrtPriceX96 eventTick zeroForOne ticks targets origin sqrtP liquidity remaining)
  | [], origin, sqrtP, liquidity, remaining =>
    inferInstanceAs (Decidable (Rests feePpm sqrtPriceX96 eventTick zeroForOne ticks origin sqrtP liquidity remaining))
  | target :: rest, _, sqrtP, liquidity, remaining =>
    let _ := decideCharged rest (past zeroForOne target) (Mint.ratioAt target)
      (liquidity + if zeroForOne then -liquidityNet ticks target else liquidityNet ticks target)
      (leftAfter zeroForOne sqrtP (Mint.ratioAt target) liquidity remaining feePpm)
    inferInstanceAs (Decidable (ite _ _ _))

end Charged

structure Walked (w w' : Walk) : Prop where
  ticks : w'.state.ticks = w.state.ticks
  position : SameShadow w.state.position w'.state.position

theorem walkSpan_ok {w : Walk} {step : SwapStep} (shadow : ShadowInRange w.state.position)
    (computed : computeSwapStep w.state.sqrtP target w.state.liquidity w.remaining feePpm = .ok step) :
    ∃ w', walkSpan feePpm zeroForOne target w = .ok (w', step) ∧ w'.state.sqrtP = step.sqrtNext ∧ w'.state.tick = w.state.tick ∧
      w'.state.liquidity = w.state.liquidity ∧ w'.reconstructedLiquidity = w.reconstructedLiquidity ∧ w'.remaining = w.remaining ∧ Walked w w' := by
  obtain ⟨position, credited, same⟩ := creditPosition_ok shadow w.state.sqrtP step.sqrtNext w.state.liquidity step.feeAmount
  unfold walkSpan
  rw [computed]
  simp only [bind, Except.bind, credited, pure, Except.pure]
  exact ⟨_, rfl, rfl, rfl, rfl, rfl, rfl, rfl, same⟩

variable {sqrtPriceX96 eventTick : ℤ}

theorem walk_rests {w : Walk} {rounds : ℕ} (fee : 0 ≤ feePpm) (known : ∀ t ∈ netTicks w.state.ticks, TickInRange t)
    (shadow : ShadowInRange w.state.position)
    (rests : Rests feePpm sqrtPriceX96 eventTick zeroForOne w.state.ticks w.state.tick w.state.sqrtP w.state.liquidity w.remaining) :
    ∃ w', walk feePpm sqrtPriceX96 eventTick zeroForOne (rounds + 1) w = .ok w' ∧
      w'.reconstructedLiquidity = w.reconstructedLiquidity ∧ Walked w w' := by
  obtain ⟨-, stops⟩ := rests
  unfold walk
  split
  · rename_i some'
    split
    · exact ⟨w, rfl, rfl, rfl, rfl⟩
    · rename_i priced
      have ends := stops some' priced
      split
      · rename_i none
        rw [none] at ends
        obtain ⟨step, computed⟩ := computeSwapStep_prices ends
        obtain ⟨w', spanned, -, -, -, same, -, walked⟩ := @walkSpan_ok zeroForOne _ _ w step shadow computed
        rw [spanned]
        exact ⟨_, rfl, same, walked.ticks, walked.position⟩
      · rename_i targetTick found
        rw [found] at ends
        have inRange := known targetTick (nextInitializedTick_mem found)
        obtain ⟨step, computed, apart, left⟩ := computeSwapStep_stops some'.le fee ends
        obtain ⟨w', spanned, -, -, -, same, held, walked⟩ := @walkSpan_ok zeroForOne _ _ w step shadow computed
        rw [getSqrtRatioAtTick_ok inRange]
        simp only [bind, Except.bind, spanned, held, left, lt_irrefl, if_false, if_neg apart]
        refine ⟨{ w' with remaining := 0 }, ?_, same, walked.ticks, walked.position⟩
        cases rounds <;> simp [walk]
  · exact ⟨w, rfl, rfl, rfl, rfl⟩

theorem walk_charged {targets : List ℤ} {rounds : ℕ} {w : Walk} (fee : 0 ≤ feePpm) (known : ∀ t ∈ netTicks w.state.ticks, TickInRange t)
    (shadow : ShadowInRange w.state.position) (list : ahead w.state.ticks zeroForOne w.state.tick = targets)
    (few : (targets.filter (passes zeroForOne eventTick)).length < rounds)
    (charged : Charged feePpm sqrtPriceX96 eventTick zeroForOne w.state.ticks targets w.state.tick w.state.sqrtP w.state.liquidity w.remaining) :
    ∃ w', walk feePpm sqrtPriceX96 eventTick zeroForOne rounds w = .ok w' ∧
      w'.reconstructedLiquidity = w.reconstructedLiquidity + netBelow w.state.ticks eventTick - netBelow w.state.ticks w.state.tick ∧ Walked w w' := by
  have resting : ∀ {rounds : ℕ} {w : Walk}, (∀ t ∈ netTicks w.state.ticks, TickInRange t) → ShadowInRange w.state.position → 0 < rounds →
      Rests feePpm sqrtPriceX96 eventTick zeroForOne w.state.ticks w.state.tick w.state.sqrtP w.state.liquidity w.remaining →
      ∃ w', walk feePpm sqrtPriceX96 eventTick zeroForOne rounds w = .ok w' ∧
        w'.reconstructedLiquidity = w.reconstructedLiquidity + netBelow w.state.ticks eventTick - netBelow w.state.ticks w.state.tick ∧ Walked w w' := by
    intro rounds w known shadow some' rests
    obtain ⟨less, rfl⟩ := Nat.exists_eq_add_one_of_ne_zero some'.ne'
    obtain ⟨w', walked, same, frame⟩ := @walk_rests _ _ _ _ w less fee known shadow rests
    refine ⟨w', walked, ?_, frame⟩
    rw [same, netBelow_clear rests.1]
    omega
  induction targets generalizing rounds w with
  | nil => exact resting known shadow (by omega) charged
  | cons target rest ih =>
    unfold Charged at charged
    split at charged
    · rename_i passed
      obtain ⟨apart, some', priced, covers, after⟩ := charged
      rw [List.filter_cons_of_pos passed, List.length_cons] at few
      obtain ⟨less, rfl⟩ := Nat.exists_eq_add_one_of_ne_zero (show rounds ≠ 0 by omega)
      have found := nextInitializedTick_first list apart
      have inRange := known target (nextInitializedTick_mem found)
      obtain ⟨step, computed, reached, left⟩ := computeSwapStep_covers some'.le fee covers
      obtain ⟨w', spanned, price, at', active, same, held, walked⟩ := @walkSpan_ok zeroForOne _ _ w step shadow computed
      have leftover : ¬ leftAfter zeroForOne w.state.sqrtP (Mint.ratioAt target) w.state.liquidity w.remaining feePpm < 0 :=
        not_lt.mpr (le_max_left _ _)
      unfold walk
      rw [if_pos some', if_neg priced, found]
      dsimp only
      rw [getSqrtRatioAtTick_ok inRange]
      simp only [bind, Except.bind, spanned, held, left, if_neg leftover, if_pos reached]
      set next := crossTick zeroForOne target { w' with remaining := leftAfter zeroForOne w.state.sqrtP (Mint.ratioAt target) w.state.liquidity w.remaining feePpm } with nextEq
      have ticksSame : next.state.ticks = w.state.ticks := walked.ticks
      have crossed := netBelow_past list
      have go : ahead next.state.ticks zeroForOne next.state.tick = rest := by
        rw [ticksSame]
        exact ahead_cons list
      have charge : Charged feePpm sqrtPriceX96 eventTick zeroForOne next.state.ticks rest next.state.tick next.state.sqrtP next.state.liquidity next.remaining := by
        have tickEq : next.state.tick = past zeroForOne target := rfl
        have priceEq : next.state.sqrtP = Mint.ratioAt target := price.trans reached
        have activeEq : next.state.liquidity = w.state.liquidity + if zeroForOne then -liquidityNet w.state.ticks target else liquidityNet w.state.ticks target := by
          show w'.state.liquidity + _ = _
          rw [active, walked.ticks]
        rw [ticksSame, tickEq, priceEq, activeEq]
        exact after
      obtain ⟨ended, ran, total, frame⟩ := @ih less next (by rw [ticksSame]; exact known) (walked.position.inRange shadow) go (by omega) charge
      refine ⟨ended, ran, ?_, frame.ticks.trans ticksSame, walked.position.trans frame.position⟩
      have delta : next.reconstructedLiquidity = w.reconstructedLiquidity + if zeroForOne then -liquidityNet w.state.ticks target else liquidityNet w.state.ticks target := by
        show w'.reconstructedLiquidity + _ = _
        rw [same, walked.ticks]
      have tickEq : next.state.tick = past zeroForOne target := rfl
      rw [total, delta, ticksSame, tickEq, crossed]
      omega
    · exact resting known shadow (by omega) charged

end LpTerminal.Emerging.Replay
