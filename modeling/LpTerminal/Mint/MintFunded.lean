import LpTerminal.Executor.Chain
import LpTerminal.Lib.Liquidity
import LpTerminal.Mint.Amounts
import Mathlib.Algebra.Order.Floor.Div
import Mathlib.Data.Nat.Cast.Order.Field

/-!
The mint call of a rebalance, what the v3 position manager does with it, and when a guarded mint goes through at every price
of its slippage band.
-/

namespace LpTerminal.Mint

/-- The protocols minted through a v3 position manager. -/
inductive V3Protocol
  | up33 | univ3

inductive MintError
  | tickOutOfRange (tick : ℤ) | mintZeroLiquidity | univ3FeeRequired
  deriving DecidableEq, Repr

structure MintConfig where
  protocol : V3Protocol
  owner : Address
  positionManager : Address
  safeguardsEnabled : Bool
  maxSlippage : SlippageBand

structure MintSnapshot where
  token0 : Address
  token1 : Address
  tickSpacing : ℤ
  sqrtPriceX96 : ℕ

structure MintArgs where
  config : MintConfig
  snapshot : MintSnapshot
  tickLower : ℤ
  tickUpper : ℤ
  amount0Desired : ℕ
  amount1Desired : ℕ
  feePpm : Option ℚ
  sqrtPriceX96 : Option ℕ
  now : ℕ

/-- How a protocol names the pool: its tick spacing, with no initial price, or its fee. -/
inductive PoolKey
  | tickSpacing (tickSpacing : ℤ) (sqrtPriceX96 : ℕ)
  | fee (fee : ℚ)
  deriving DecidableEq

structure MintParams where
  token0 : Address
  token1 : Address
  tickLower : ℤ
  tickUpper : ℤ
  amount0Desired : ℕ
  amount1Desired : ℕ
  mins : MinAmounts
  recipient : Address
  deadline : ℕ
  pool : PoolKey
  deriving DecidableEq

structure MintContractCall where
  target : Address
  params : MintParams
  value : ℕ
  deriving DecidableEq

def MintArgs.price (args : MintArgs) : ℕ :=
  args.sqrtPriceX96.getD args.snapshot.sqrtPriceX96

def MintArgs.liquidity (args : MintArgs) (sqrtA sqrtB : ℕ) : ℕ :=
  if args.config.safeguardsEnabled then
    liquidityForAmountsWithSlippage args.price sqrtA sqrtB args.amount0Desired args.amount1Desired args.config.maxSlippage
  else getLiquidityForAmounts args.price sqrtA sqrtB args.amount0Desired args.amount1Desired

def MintArgs.mins (args : MintArgs) (sqrtA sqrtB liquidity : ℕ) : MinAmounts :=
  if args.config.safeguardsEnabled then minAmountsForLiquidity args.price sqrtA sqrtB liquidity args.config.maxSlippage
  else ⟨0, 0⟩

def poolKey (args : MintArgs) : Except MintError PoolKey :=
  match args.config.protocol with
  | .up33 => .ok (.tickSpacing args.snapshot.tickSpacing 0)
  | .univ3 =>
    match args.feePpm with
    | none => .error .univ3FeeRequired
    | some fee => if fee.den ≠ 1 ∨ fee < 1 then .error .univ3FeeRequired else .ok (.fee fee)

/-- `mintCall` for the v3 protocols. -/
def mintCall (args : MintArgs) : Except MintError MintContractCall :=
  match getSqrtRatioAtTick args.tickLower, getSqrtRatioAtTick args.tickUpper with
  | none, _ => .error (.tickOutOfRange args.tickLower)
  | some _, none => .error (.tickOutOfRange args.tickUpper)
  | some sqrtA, some sqrtB =>
    let liquidity := args.liquidity sqrtA sqrtB
    if liquidity = 0 then .error .mintZeroLiquidity
    else
      match poolKey args with
      | .error error => .error error
      | .ok pool =>
        .ok
          { target := args.config.positionManager
            params :=
              { token0 := args.snapshot.token0
                token1 := args.snapshot.token1
                tickLower := args.tickLower
                tickUpper := args.tickUpper
                amount0Desired := args.amount0Desired
                amount1Desired := args.amount1Desired
                mins := args.mins sqrtA sqrtB liquidity
                recipient := args.config.owner
                deadline := args.now + 20 * 60
                pool }
            value := 0 }

theorem mintCall_ok {args : MintArgs} {call : MintContractCall} {sqrtA sqrtB : ℕ} (lower : getSqrtRatioAtTick args.tickLower = some sqrtA)
    (upper : getSqrtRatioAtTick args.tickUpper = some sqrtB) (built : mintCall args = .ok call) :
    args.liquidity sqrtA sqrtB ≠ 0 ∧ call.params.amount0Desired = args.amount0Desired ∧
      call.params.amount1Desired = args.amount1Desired ∧ call.params.mins = args.mins sqrtA sqrtB (args.liquidity sqrtA sqrtB) := by
  unfold mintCall at built
  rw [lower, upper] at built
  dsimp only at built
  split at built
  · cases built
  · rename_i funded
    split at built
    · cases built
    · cases built
      exact ⟨funded, rfl, rfl, rfl⟩

def getLiquidityForAmount0 (sqrtA sqrtB amount0 : ℕ) : ℕ :=
  let intermediate := sqrtA * sqrtB / Q96
  amount0 * intermediate / (sqrtB - sqrtA)

def getLiquidityForAmount1 (sqrtA sqrtB amount1 : ℕ) : ℕ :=
  amount1 * Q96 / (sqrtB - sqrtA)

def managerLiquidity (sqrtP sqrtA sqrtB amount0 amount1 : ℕ) : ℕ :=
  if sqrtP ≤ sqrtA then getLiquidityForAmount0 sqrtA sqrtB amount0
  else if sqrtP < sqrtB then min (getLiquidityForAmount0 sqrtP sqrtB amount0) (getLiquidityForAmount1 sqrtA sqrtP amount1)
  else getLiquidityForAmount1 sqrtA sqrtB amount1

def poolAmount0 (sqrtA sqrtB liquidity : ℕ) : ℕ :=
  liquidity * Q96 * (sqrtB - sqrtA) ⌈/⌉ sqrtB ⌈/⌉ sqrtA

def poolAmount1 (sqrtA sqrtB liquidity : ℕ) : ℕ :=
  liquidity * (sqrtB - sqrtA) ⌈/⌉ Q96

def poolAmounts (sqrtP sqrtA sqrtB liquidity : ℕ) : TokenAmounts :=
  if sqrtP ≤ sqrtA then ⟨poolAmount0 sqrtA sqrtB liquidity, 0⟩
  else if sqrtP < sqrtB then ⟨poolAmount0 sqrtP sqrtB liquidity, poolAmount1 sqrtA sqrtP liquidity⟩
  else ⟨0, poolAmount1 sqrtA sqrtB liquidity⟩

def pulled (sqrtP sqrtA sqrtB amount0 amount1 : ℕ) : TokenAmounts :=
  poolAmounts sqrtP sqrtA sqrtB (managerLiquidity sqrtP sqrtA sqrtB amount0 amount1)

def MintsAt (sqrtP sqrtA sqrtB : ℕ) (params : MintParams) : Prop :=
  let taken := pulled sqrtP sqrtA sqrtB params.amount0Desired params.amount1Desired
  params.mins.amount0Min ≤ taken.amount0 ∧ params.mins.amount1Min ≤ taken.amount1 ∧
    taken.amount0 ≤ params.amount0Desired ∧ taken.amount1 ≤ params.amount1Desired

instance {sqrtP sqrtA sqrtB : ℕ} {params : MintParams} : Decidable (MintsAt sqrtP sqrtA sqrtB params) := by
  unfold MintsAt
  infer_instance

open Liquidity

variable {sqrtP sqrtA sqrtB a b c liquidity less amount0Desired amount1Desired : ℕ} {band : SlippageBand}

theorem Q96_pos : 0 < Q96 := by decide

def worth0 (a b liquidity : ℕ) : ℚ :=
  amount0 (Q96 : ℚ) liquidity a b

def worth1 (a b liquidity : ℕ) : ℚ :=
  amount1 (Q96 : ℚ) liquidity a b

theorem amount0For_eq (inOrder : a ≤ b) : amount0For a b liquidity = ⌊worth0 a b liquidity⌋₊ :=
  (floor_amount0 inOrder).symm

theorem amount1For_eq (inOrder : a ≤ b) : amount1For a b liquidity = ⌊worth1 a b liquidity⌋₊ :=
  (floor_amount1 inOrder).symm

theorem poolAmount0_eq (positive : 0 < a) (inOrder : a ≤ b) : poolAmount0 a b liquidity = ⌈worth0 a b liquidity⌉₊ :=
  (ceil_amount0 positive inOrder).symm

theorem poolAmount1_eq (inOrder : a ≤ b) : poolAmount1 a b liquidity = ⌈worth1 a b liquidity⌉₊ :=
  (ceil_amount1 Q96_pos inOrder).symm

theorem worth0_mono (positive : 0 < a) (inOrder : a ≤ b) (smaller : less ≤ liquidity) : worth0 a b less ≤ worth0 a b liquidity :=
  amount0_mono (Nat.cast_nonneg Q96) (Nat.cast_pos.mpr positive) (Nat.cast_le.mpr inOrder) (Nat.cast_le.mpr smaller)

theorem worth0_anti (positive : 0 < a) (later : a ≤ c) (inOrder : c ≤ b) : worth0 c b liquidity ≤ worth0 a b liquidity :=
  amount0_anti (Nat.cast_nonneg Q96) (Nat.cast_nonneg liquidity) (Nat.cast_pos.mpr positive) (Nat.cast_le.mpr later)
    (Nat.cast_le.mpr inOrder)

theorem worth1_mono (inOrder : a ≤ b) (smaller : less ≤ liquidity) : worth1 a b less ≤ worth1 a b liquidity :=
  amount1_mono (Nat.cast_nonneg Q96) (Nat.cast_le.mpr inOrder) (Nat.cast_le.mpr smaller)

theorem worth1_widen (wider : c ≤ b) : worth1 a c liquidity ≤ worth1 a b liquidity :=
  amount1_widen (Nat.cast_nonneg Q96) (Nat.cast_nonneg liquidity) (Nat.cast_le.mpr wider)

theorem poolAmount0_mono (positive : 0 < a) (inOrder : a ≤ b) (smaller : less ≤ liquidity) : poolAmount0 a b less ≤ poolAmount0 a b liquidity := by
  rw [poolAmount0_eq positive inOrder, poolAmount0_eq positive inOrder]
  exact Nat.ceil_mono (worth0_mono positive inOrder smaller)

theorem poolAmount1_mono (inOrder : a ≤ b) (smaller : less ≤ liquidity) : poolAmount1 a b less ≤ poolAmount1 a b liquidity := by
  rw [poolAmount1_eq inOrder, poolAmount1_eq inOrder]
  exact Nat.ceil_mono (worth1_mono inOrder smaller)

theorem getLiquidityForAmount0_mono (later : a ≤ c) (below : c < b) :
    getLiquidityForAmount0 a b amount0Desired ≤ getLiquidityForAmount0 c b amount0Desired := by
  unfold getLiquidityForAmount0
  dsimp only
  have product : a * b / Q96 ≤ c * b / Q96 := Nat.div_le_div_right (Nat.mul_le_mul_right _ later)
  exact Nat.div_le_div (Nat.mul_le_mul_left _ product) (by omega) (by omega)

theorem getLiquidityForAmount1_anti (above : a < c) (later : c ≤ b) :
    getLiquidityForAmount1 a b amount1Desired ≤ getLiquidityForAmount1 a c amount1Desired :=
  Nat.div_le_div_left (by omega) (by omega)

theorem poolAmount0_funded (positive : 0 < a) (inOrder : a < b) (funded : liquidity ≤ getLiquidityForAmount0 a b amount0Desired) :
    poolAmount0 a b liquidity ≤ amount0Desired := by
  rw [poolAmount0_eq positive inOrder.le]
  refine Nat.ceil_le.mpr (amount0_le (Nat.cast_pos.mpr Q96_pos) (Nat.cast_pos.mpr positive) (Nat.cast_lt.mpr inOrder) ?_)
  have whole : liquidity * (b - a) ≤ amount0Desired * (a * b / Q96) :=
    (Nat.le_div_iff_mul_le (by omega)).mp funded
  calc (liquidity : ℚ) * (b - a) = ((liquidity * (b - a) : ℕ) : ℚ) := by push_cast [Nat.cast_sub inOrder.le]; rfl
    _ ≤ ((amount0Desired * (a * b / Q96) : ℕ) : ℚ) := by exact_mod_cast whole
    _ = amount0Desired * ((a * b / Q96 : ℕ) : ℚ) := Nat.cast_mul _ _
    _ ≤ amount0Desired * (((a * b : ℕ) : ℚ) / (Q96 : ℕ)) := by
        gcongr
        exact Nat.cast_div_le
    _ = amount0Desired * (a * b / Q96) := by push_cast; rfl

theorem poolAmount1_funded (inOrder : a < b) (funded : liquidity ≤ getLiquidityForAmount1 a b amount1Desired) :
    poolAmount1 a b liquidity ≤ amount1Desired := by
  rw [poolAmount1_eq inOrder.le]
  refine Nat.ceil_le.mpr (amount1_le (Nat.cast_pos.mpr Q96_pos) ?_)
  have whole : liquidity * (b - a) ≤ amount1Desired * Q96 := (Nat.le_div_iff_mul_le (by omega)).mp funded
  calc (liquidity : ℚ) * (b - a) = ((liquidity * (b - a) : ℕ) : ℚ) := by push_cast [Nat.cast_sub inOrder.le]; rfl
    _ ≤ amount1Desired * Q96 := by exact_mod_cast whole

def sized (sqrtP sqrtA sqrtB amount0Desired amount1Desired : ℕ) (band : SlippageBand) : ℕ :=
  liquidityForAmountsWithSlippage sqrtP sqrtA sqrtB amount0Desired amount1Desired band

/-- The liquidity the manager derives from amount0Desired alone, with its truncated product, misses no
whole token that the builder counts on: no token1 at the bottom of the band, no token0 anywhere in it. -/
structure NoTokenLost (sqrtP sqrtA sqrtB amount0Desired amount1Desired : ℕ) (band : SlippageBand) : Prop where
  token1 : sqrtA < band.low sqrtP →
    ⌊worth1 sqrtA (band.low sqrtP) (sized sqrtP sqrtA sqrtB amount0Desired amount1Desired band)⌋₊ ≤
      ⌈worth1 sqrtA (band.low sqrtP) (getLiquidityForAmount0 (band.low sqrtP) sqrtB amount0Desired)⌉₊
  token0 : band.high sqrtP < sqrtB → ∀ c, band.bottom sqrtP sqrtA ≤ c → c ≤ band.high sqrtP →
    ⌊worth0 (band.high sqrtP) sqrtB (sized sqrtP sqrtA sqrtB amount0Desired amount1Desired band)⌋₊ ≤
      ⌈worth0 c sqrtB (getLiquidityForAmount0 c sqrtB amount0Desired)⌉₊

section Band

variable {mins : MinAmounts} (lower : sqrtA < sqrtP) (upper : sqrtP < sqrtB)
  (funded : sized sqrtP sqrtA sqrtB amount0Desired amount1Desired band ≠ 0)
  (minima : mins = minAmountsForLiquidity sqrtP sqrtA sqrtB (sized sqrtP sqrtA sqrtB amount0Desired amount1Desired band) band)

include lower upper

theorem sized_le_manager1 : sized sqrtP sqrtA sqrtB amount0Desired amount1Desired band ≤
    getLiquidityForAmount1 sqrtA (band.top sqrtP sqrtB) amount1Desired := by
  have side := @sized_le_liquidity1 sqrtP sqrtA sqrtB amount0Desired amount1Desired band lower upper
  unfold liquidity1 at side
  rw [if_neg (lt_top lower upper).ne'] at side
  exact side

include funded

theorem bottom_pos : 0 < band.bottom sqrtP sqrtA := by
  refine Nat.pos_of_ne_zero fun zero => funded ?_
  have none := @sized_le_liquidity0 sqrtP sqrtA sqrtB amount0Desired amount1Desired band lower upper
  unfold liquidity0 at none
  rw [zero, Nat.mul_zero, Nat.zero_mul, Nat.zero_div, Nat.zero_div, ite_self] at none
  exact Nat.le_zero.mp none

include minima

theorem amount0Min_eq : mins.amount0Min =
    if band.high sqrtP < sqrtB then
      ⌊worth0 (band.high sqrtP) sqrtB (sized sqrtP sqrtA sqrtB amount0Desired amount1Desired band)⌋₊
    else 0 := by
  rw [minima, minAmountsForLiquidity_inRange lower upper]
  unfold getAmountsForLiquidity
  rw [ordered_of_lt (lower.trans upper)]
  dsimp only
  rw [if_neg funded, if_neg (Nat.not_le.mpr (lt_top lower upper))]
  by_cases inside : band.high sqrtP < sqrtB
  · have top : band.top sqrtP sqrtB = band.high sqrtP := min_eq_left inside.le
    rw [top, if_neg (Nat.not_le.mpr inside), if_pos inside]
    exact amount0For_eq inside.le
  · have top : band.top sqrtP sqrtB = sqrtB := min_eq_right (Nat.not_lt.mp inside)
    rw [top, if_pos le_rfl, if_neg inside]

theorem amount1Min_eq : mins.amount1Min =
    if sqrtA < band.low sqrtP then
      ⌊worth1 sqrtA (band.low sqrtP) (sized sqrtP sqrtA sqrtB amount0Desired amount1Desired band)⌋₊
    else 0 := by
  rw [minima, minAmountsForLiquidity_inRange lower upper]
  unfold getAmountsForLiquidity
  rw [ordered_of_lt (lower.trans upper)]
  dsimp only
  rw [if_neg funded]
  by_cases inside : sqrtA < band.low sqrtP
  · have bottom : band.bottom sqrtP sqrtA = band.low sqrtP := max_eq_left inside.le
    rw [bottom, if_neg (Nat.not_le.mpr inside), if_neg (Nat.not_le.mpr ((low_le band sqrtP).trans_lt upper)), if_pos inside]
    exact amount1For_eq inside.le
  · have bottom : band.bottom sqrtP sqrtA = sqrtA := max_eq_right (Nat.not_lt.mp inside)
    rw [bottom, if_pos le_rfl, if_neg inside]

theorem mints_of_spared (spared : NoTokenLost sqrtP sqrtA sqrtB amount0Desired amount1Desired band) {p : ℕ}
    (above : band.low sqrtP ≤ p) (below : p ≤ band.high sqrtP) :
    mins.amount0Min ≤ (pulled p sqrtA sqrtB amount0Desired amount1Desired).amount0 ∧
      mins.amount1Min ≤ (pulled p sqrtA sqrtB amount0Desired amount1Desired).amount1 ∧
      (pulled p sqrtA sqrtB amount0Desired amount1Desired).amount0 ≤ amount0Desired ∧
      (pulled p sqrtA sqrtB amount0Desired amount1Desired).amount1 ≤ amount1Desired := by
  have inOrder : sqrtA < sqrtB := lower.trans upper
  have least := bottom_pos lower upper funded
  have most := @sized_le_manager1 sqrtP sqrtA sqrtB amount0Desired amount1Desired band lower upper
  rw [amount0Min_eq lower upper funded minima, amount1Min_eq lower upper funded minima]
  unfold pulled poolAmounts managerLiquidity
  by_cases under : p ≤ sqrtA
  · -- Below the range the deposit is all token0 and its size does not depend on the price.
    have bottom : band.bottom sqrtP sqrtA = sqrtA := max_eq_right (above.trans under)
    rw [bottom] at least
    rw [if_pos under, if_pos under, if_neg (Nat.not_lt.mpr (above.trans under))]
    refine ⟨?_, Nat.zero_le _, poolAmount0_funded least inOrder le_rfl, Nat.zero_le _⟩
    dsimp only
    split
    · rename_i inside
      rw [poolAmount0_eq least inOrder.le]
      exact spared.token0 inside sqrtA bottom.le (lower.le.trans (le_high band sqrtP))
    · exact Nat.zero_le _
  · rw [if_neg under, if_neg under]
    have past := Nat.not_le.mp under
    have low : band.bottom sqrtP sqrtA ≤ p := max_le above past.le
    have positive : 0 < p := least.trans_le low
    by_cases inside : p < sqrtB
    · rw [if_pos inside, if_pos inside]
      dsimp only
      have top : p ≤ band.top sqrtP sqrtB := le_min below inside.le
      have counted : sized sqrtP sqrtA sqrtB amount0Desired amount1Desired band ≤ getLiquidityForAmount1 sqrtA p amount1Desired :=
        most.trans (getLiquidityForAmount1_anti past top)
      refine ⟨?_, ?_, poolAmount0_funded positive inside (min_le_left _ _), poolAmount1_funded past (min_le_right _ _)⟩
      · split
        · rename_i high
          rw [poolAmount0_eq positive inside.le]
          rcases min_choice (getLiquidityForAmount0 p sqrtB amount0Desired) (getLiquidityForAmount1 sqrtA p amount1Desired) with first | second
          · rw [first]
            exact spared.token0 high p low below
          · rw [second]
            refine (Nat.floor_le_ceil _).trans (Nat.ceil_mono ?_)
            exact (worth0_anti positive below high.le).trans (worth0_mono positive inside.le counted)
        · exact Nat.zero_le _
      · split
        · rename_i bottomIn
          rw [poolAmount1_eq past.le]
          rcases min_choice (getLiquidityForAmount0 p sqrtB amount0Desired) (getLiquidityForAmount1 sqrtA p amount1Desired) with first | second
          · rw [first]
            refine (spared.token1 bottomIn).trans (Nat.ceil_mono ?_)
            exact (worth1_mono bottomIn.le (getLiquidityForAmount0_mono above inside)).trans (worth1_widen above)
          · rw [second]
            refine (Nat.floor_le_ceil _).trans (Nat.ceil_mono ?_)
            exact (worth1_mono bottomIn.le counted).trans (worth1_widen above)
        · exact Nat.zero_le _
    · -- Above the range it is all token1.
      have reaches : sqrtB ≤ band.high sqrtP := (Nat.not_lt.mp inside).trans below
      have top : band.top sqrtP sqrtB = sqrtB := min_eq_right reaches
      rw [top] at most
      rw [if_neg inside, if_neg inside, if_neg (Nat.not_lt.mpr reaches)]
      refine ⟨Nat.zero_le _, ?_, Nat.zero_le _, poolAmount1_funded inOrder le_rfl⟩
      dsimp only
      split
      · rename_i bottomIn
        rw [poolAmount1_eq inOrder.le]
        refine (Nat.floor_le_ceil _).trans (Nat.ceil_mono ?_)
        exact (worth1_mono bottomIn.le most).trans (worth1_widen ((low_le band sqrtP).trans upper.le))
      · exact Nat.zero_le _

theorem spared_of_mints
    (mints : ∀ p, band.low sqrtP ≤ p → p ≤ band.high sqrtP →
      mins.amount0Min ≤ (pulled p sqrtA sqrtB amount0Desired amount1Desired).amount0 ∧
        mins.amount1Min ≤ (pulled p sqrtA sqrtB amount0Desired amount1Desired).amount1) :
    NoTokenLost sqrtP sqrtA sqrtB amount0Desired amount1Desired band := by
  have inOrder : sqrtA < sqrtB := lower.trans upper
  have least := bottom_pos lower upper funded
  rw [amount0Min_eq lower upper funded minima, amount1Min_eq lower upper funded minima] at mints
  constructor
  · intro bottomIn
    have under : band.low sqrtP < sqrtB := (low_le band sqrtP).trans_lt upper
    have pulls := (mints (band.low sqrtP) le_rfl ((low_le band sqrtP).trans (le_high band sqrtP))).2
    unfold pulled poolAmounts managerLiquidity at pulls
    rw [if_pos bottomIn, if_neg (Nat.not_le.mpr bottomIn), if_neg (Nat.not_le.mpr bottomIn), if_pos under, if_pos under] at pulls
    exact (pulls.trans (poolAmount1_mono bottomIn.le (min_le_left _ _))).trans_eq (poolAmount1_eq bottomIn.le)
  · intro high c low below
    have inside : c < sqrtB := below.trans_lt high
    have positive : 0 < c := least.trans_le low
    have pulls := (mints c ((le_max_left _ _).trans low) below).1
    unfold pulled poolAmounts managerLiquidity at pulls
    rw [if_pos high] at pulls
    by_cases under : c ≤ sqrtA
    · have edge : c = sqrtA := le_antisymm under ((le_max_right _ _).trans low)
      subst edge
      rw [if_pos le_rfl, if_pos le_rfl] at pulls
      exact pulls.trans_eq (poolAmount0_eq positive inside.le)
    · rw [if_neg under, if_neg under, if_pos inside, if_pos inside] at pulls
      exact (pulls.trans (poolAmount0_mono positive inside.le (min_le_left _ _))).trans_eq (poolAmount0_eq positive inside.le)

end Band

theorem spared_of_liquidity (lower : sqrtA < sqrtP) (upper : sqrtP < sqrtB)
    (funded : sized sqrtP sqrtA sqrtB amount0Desired amount1Desired band ≠ 0)
    (enough : sized sqrtP sqrtA sqrtB amount0Desired amount1Desired band ≤
      getLiquidityForAmount0 (band.bottom sqrtP sqrtA) sqrtB amount0Desired) :
    NoTokenLost sqrtP sqrtA sqrtB amount0Desired amount1Desired band := by
  have least := bottom_pos lower upper funded
  constructor
  · intro bottomIn
    have bottom : band.bottom sqrtP sqrtA = band.low sqrtP := max_eq_left bottomIn.le
    rw [bottom] at enough
    exact (Nat.floor_le_ceil _).trans (Nat.ceil_mono (worth1_mono bottomIn.le enough))
  · intro high c low below
    have inside : c < sqrtB := below.trans_lt high
    have positive : 0 < c := least.trans_le low
    refine (Nat.floor_le_ceil _).trans (Nat.ceil_mono ?_)
    calc worth0 (band.high sqrtP) sqrtB _ ≤ worth0 c sqrtB _ := worth0_anti positive below high.le
      _ ≤ worth0 c sqrtB _ := worth0_mono positive inside.le (enough.trans (getLiquidityForAmount0_mono low inside))

def zeroTolerance : SlippageBand := ⟨10 ^ 9, 10 ^ 9, le_rfl, le_rfl⟩

def mintArgs (tickLower tickUpper : ℤ) (sqrtPriceX96 amount0Desired amount1Desired : ℕ) (maxSlippage : SlippageBand) : MintArgs where
  config := ⟨.univ3, 10, 20, true, maxSlippage⟩
  snapshot := ⟨1, 2, 60, sqrtPriceX96⟩
  tickLower
  tickUpper
  amount0Desired
  amount1Desired
  feePpm := some 3000
  sqrtPriceX96 := none
  now := 1700000000

def parArgs : MintArgs := mintArgs (-600) 600 Q96 (10 ^ 18) (10 ^ 18) ⟨994987437, 1004987562, by decide, by decide⟩

def parCall : MintContractCall where
  target := 20
  params := ⟨1, 2, -600, 600, 10 ^ 18, 10 ^ 18, parArgs.mins 76886731765546235930195592750 81640896826356156310682304526 (parArgs.liquidity 76886731765546235930195592750 81640896826356156310682304526), 10, 1700001200, .fee 3000⟩
  value := 0

/-- Price `1e-18`, no slippage tolerated: the manager pulls less token0 than the minimum asks for. -/
def lowArgs : MintArgs := mintArgs (-414540) (-414420) 79252447085440924845 (10 ^ 24) (10 ^ 30) zeroTolerance

end LpTerminal.Mint
