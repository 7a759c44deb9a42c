import Mathlib.Data.Rat.Floor

/-!
Concentrated-liquidity math on integers: square-root prices in units of `1 / 2^96`, amounts and
liquidity between two of them, and the sizing of a deposit over a band of prices.
-/

namespace LpTerminal.Mint

def Q96 : ℕ := 2 ^ 96

def maxTick : ℕ := 887272

def ratioFactors : List (ℕ × ℕ) :=
  [(0x2, 0xfff97272373d413259a46990580e213a), (0x4, 0xfff2e50f5f656932ef12357cf3c7fdcc),
   (0x8, 0xffe5caca7e10e4e61c3624eaa0941cd0), (0x10, 0xffcb9843d60f6159c9db58835c926644),
   (0x20, 0xff973b41fa98c081472e6896dfb254c0), (0x40, 0xff2ea16466c96a3843ec78b326b52861),
   (0x80, 0xfe5dee046a99a2a811c461f1969c3053), (0x100, 0xfcbe86c7900a88aedcffc83b479aa3a4),
   (0x200, 0xf987a7253ac413176f2b074cf7815e54), (0x400, 0xf3392b0822b70005940c7a398e4b70f3),
   (0x800, 0xe7159475a2c29b7443b29c7fa6e889d9), (0x1000, 0xd097f3bdfd2022b8845ad8f792aa5825),
   (0x2000, 0xa9f746462d870fdf8a65dc1f90e061e5), (0x4000, 0x70d869a156d2a1b890bb3df62baf32f7),
   (0x8000, 0x31be135f97d08fd981231505542fcfa6), (0x10000, 0x9aa508b5b7a84e1c677de54f3e99bc9),
   (0x20000, 0x5d6af8dedb81196699c329225ee604), (0x40000, 0x2216e584f5fa1ea926041bedfe98),
   (0x80000, 0x48a170391f7dc42444e8fa2)]

/-- The square-root price of a tick, rounded up; `none` is the `out of range` error. -/
def getSqrtRatioAtTick (tick : ℤ) : Option ℕ :=
  let absTick := tick.natAbs
  if maxTick < absTick then none
  else
    let start : ℕ := if absTick &&& 0x1 ≠ 0 then 0xfffcb933bd6fad37aa2d162d1a594001 else 2 ^ 128
    let ratio : ℕ := ratioFactors.foldl (fun ratio (bit, factor) => if absTick &&& bit ≠ 0 then ratio * factor / 2 ^ 128 else ratio) start
    let ratio : ℕ := if 0 < tick then (2 ^ 256 - 1) / ratio else ratio
    some (ratio / 2 ^ 32 + if ratio % 2 ^ 32 = 0 then 0 else 1)

def amount0For (sqrtA sqrtB liquidity : ℕ) : ℕ :=
  liquidity * Q96 * (sqrtB - sqrtA) / sqrtB / sqrtA

def amount1For (sqrtA sqrtB liquidity : ℕ) : ℕ :=
  liquidity * (sqrtB - sqrtA) / Q96

structure TokenAmounts where
  amount0 : ℕ
  amount1 : ℕ

def ordered (sqrtA sqrtB : ℕ) : ℕ × ℕ :=
  if sqrtB < sqrtA then (sqrtB, sqrtA) else (sqrtA, sqrtB)

def getAmountsForLiquidity (sqrtP sqrtA sqrtB liquidity : ℕ) : TokenAmounts :=
  let (sqrtA, sqrtB) := ordered sqrtA sqrtB
  if liquidity = 0 then ⟨0, 0⟩
  else if sqrtP ≤ sqrtA then ⟨amount0For sqrtA sqrtB liquidity, 0⟩
  else if sqrtB ≤ sqrtP then ⟨0, amount1For sqrtA sqrtB liquidity⟩
  else ⟨amount0For sqrtP sqrtB liquidity, amount1For sqrtA sqrtP liquidity⟩

def liquidity0 (sqrtA sqrtB amount0 : ℕ) : ℕ :=
  if sqrtB = sqrtA then 0 else amount0 * sqrtA * sqrtB / Q96 / (sqrtB - sqrtA)

def liquidity1 (sqrtA sqrtB amount1 : ℕ) : ℕ :=
  if sqrtB = sqrtA then 0 else amount1 * Q96 / (sqrtB - sqrtA)

def getLiquidityForAmounts (sqrtP sqrtA sqrtB amount0 amount1 : ℕ) : ℕ :=
  let (sqrtA, sqrtB) := ordered sqrtA sqrtB
  if sqrtP ≤ sqrtA then liquidity0 sqrtA sqrtB amount0
  else if sqrtB ≤ sqrtP then liquidity1 sqrtA sqrtB amount1
  else min (liquidity0 sqrtP sqrtB amount0) (liquidity1 sqrtA sqrtP amount1)

/-- What `Math.round(Math.sqrt(1 ± slipBps / 10_000) * 1e9)` yields: no more than `1e9` below, no less above. -/
structure SlippageBand where
  dn : ℕ
  up : ℕ
  dn_le : dn ≤ 10 ^ 9
  le_up : 10 ^ 9 ≤ up

/-- The square root of a number in units of `1e-9`, to the nearest one. -/
def roundedRoot (value : ℚ) : ℕ :=
  (Nat.sqrt ⌊4 * value * 10 ^ 18⌋₊ + 1) / 2

theorem roundedRoot_le {value : ℚ} (below : value ≤ 1) : roundedRoot value ≤ 10 ^ 9 := by
  have floored : ⌊4 * value * 10 ^ 18⌋₊ ≤ (2 * 10 ^ 9) ^ 2 := by
    refine Nat.floor_le_of_le ?_
    push_cast
    linarith
  have root : Nat.sqrt ⌊4 * value * 10 ^ 18⌋₊ ≤ 2 * 10 ^ 9 := by
    rw [← Nat.sqrt_eq' (2 * 10 ^ 9)]
    exact Nat.sqrt_le_sqrt floored
  unfold roundedRoot
  omega

theorem le_roundedRoot {value : ℚ} (above : 1 ≤ value) : 10 ^ 9 ≤ roundedRoot value := by
  have floored : (2 * 10 ^ 9) ^ 2 ≤ ⌊4 * value * 10 ^ 18⌋₊ := by
    refine Nat.le_floor ?_
    push_cast
    linarith
  have root : 2 * 10 ^ 9 ≤ Nat.sqrt ⌊4 * value * 10 ^ 18⌋₊ := by
    rw [← Nat.sqrt_eq' (2 * 10 ^ 9)]
    exact Nat.sqrt_le_sqrt floored
  unfold roundedRoot
  omega

def slippageBand (slipBps : ℚ) (tolerated : 0 ≤ slipBps) : SlippageBand where
  dn := roundedRoot (max 0 (1 - slipBps / 10000))
  up := roundedRoot (1 + slipBps / 10000)
  dn_le := roundedRoot_le (max_le (by norm_num) (by linarith))
  le_up := le_roundedRoot (by linarith)

def scale : ℕ := 10 ^ 9

def SlippageBand.low (band : SlippageBand) (sqrtP : ℕ) : ℕ := sqrtP * band.dn / scale

def SlippageBand.high (band : SlippageBand) (sqrtP : ℕ) : ℕ := sqrtP * band.up / scale

def unbounded : ℕ := 2 ^ 224

def liquidityForAmountsWithSlippage (sqrtP sqrtA sqrtB amount0 amount1 : ℕ) (band : SlippageBand) : ℕ :=
  let (sqrtA, sqrtB) := ordered sqrtA sqrtB
  let lo := band.low sqrtP
  let hi := band.high sqrtP
  let (lo, hi) :=
    if sqrtP ≤ sqrtA then (sqrtA, sqrtA)
    else if sqrtB ≤ sqrtP then (sqrtB, sqrtB)
    else (if lo < sqrtA then sqrtA else lo, if sqrtB < hi then sqrtB else hi)
  min (getLiquidityForAmounts lo sqrtA sqrtB amount0 unbounded) (getLiquidityForAmounts hi sqrtA sqrtB unbounded amount1)

structure MinAmounts where
  amount0Min : ℕ
  amount1Min : ℕ
  deriving DecidableEq, Repr

def minAmountsForLiquidity (sqrtP sqrtA sqrtB liquidity : ℕ) (band : SlippageBand) : MinAmounts :=
  let (sqrtA, sqrtB) := ordered sqrtA sqrtB
  let hi := if sqrtB < band.high sqrtP then sqrtB else band.high sqrtP
  let lo := if band.low sqrtP < sqrtA then sqrtA else band.low sqrtP
  ⟨(getAmountsForLiquidity hi sqrtA sqrtB liquidity).amount0, (getAmountsForLiquidity lo sqrtA sqrtB liquidity).amount1⟩

variable {sqrtP sqrtA sqrtB amount0 amount1 liquidity : ℕ} {band : SlippageBand}

theorem ordered_of_lt (inOrder : sqrtA < sqrtB) : ordered sqrtA sqrtB = (sqrtA, sqrtB) :=
  if_neg (Nat.lt_asymm inOrder)

theorem low_le (band : SlippageBand) (sqrtP : ℕ) : band.low sqrtP ≤ sqrtP :=
  Nat.div_le_of_le_mul (by rw [Nat.mul_comm]; exact Nat.mul_le_mul_right _ band.dn_le)

theorem le_high (band : SlippageBand) (sqrtP : ℕ) : sqrtP ≤ band.high sqrtP :=
  (Nat.le_div_iff_mul_le (by decide)).mpr (Nat.mul_le_mul_left _ band.le_up)

def SlippageBand.bottom (band : SlippageBand) (sqrtP sqrtA : ℕ) : ℕ := max (band.low sqrtP) sqrtA

def SlippageBand.top (band : SlippageBand) (sqrtP sqrtB : ℕ) : ℕ := min (band.high sqrtP) sqrtB

theorem bottom_ite : (if band.low sqrtP < sqrtA then sqrtA else band.low sqrtP) = band.bottom sqrtP sqrtA := by
  unfold SlippageBand.bottom
  split <;> omega

theorem top_ite : (if sqrtB < band.high sqrtP then sqrtB else band.high sqrtP) = band.top sqrtP sqrtB := by
  unfold SlippageBand.top
  split <;> omega

section

variable (lower : sqrtA < sqrtP)
include lower

theorem bottom_lt (upper : sqrtP < sqrtB) : band.bottom sqrtP sqrtA < sqrtB :=
  max_lt ((low_le band sqrtP).trans_lt upper) (lower.trans upper)

theorem lt_top (upper : sqrtP < sqrtB) : sqrtA < band.top sqrtP sqrtB :=
  lt_min (lower.trans_le (le_high band sqrtP)) (lower.trans upper)

theorem liquidityForAmountsWithSlippage_inRange (upper : sqrtP < sqrtB) :
    liquidityForAmountsWithSlippage sqrtP sqrtA sqrtB amount0 amount1 band =
      min (getLiquidityForAmounts (band.bottom sqrtP sqrtA) sqrtA sqrtB amount0 unbounded)
        (getLiquidityForAmounts (band.top sqrtP sqrtB) sqrtA sqrtB unbounded amount1) := by
  unfold liquidityForAmountsWithSlippage
  rw [ordered_of_lt (lower.trans upper)]
  dsimp only
  rw [if_neg (Nat.not_le.mpr lower), if_neg (Nat.not_le.mpr upper)]
  dsimp only
  rw [bottom_ite, top_ite]

theorem minAmountsForLiquidity_inRange (upper : sqrtP < sqrtB) :
    minAmountsForLiquidity sqrtP sqrtA sqrtB liquidity band =
      ⟨(getAmountsForLiquidity (band.top sqrtP sqrtB) sqrtA sqrtB liquidity).amount0,
        (getAmountsForLiquidity (band.bottom sqrtP sqrtA) sqrtA sqrtB liquidity).amount1⟩ := by
  unfold minAmountsForLiquidity
  rw [ordered_of_lt (lower.trans upper)]
  dsimp only
  rw [bottom_ite, top_ite]

theorem sized_le_liquidity0 (upper : sqrtP < sqrtB) :
    liquidityForAmountsWithSlippage sqrtP sqrtA sqrtB amount0 amount1 band ≤ liquidity0 (band.bottom sqrtP sqrtA) sqrtB amount0 := by
  rw [liquidityForAmountsWithSlippage_inRange lower upper]
  refine (min_le_left _ _).trans ?_
  unfold getLiquidityForAmounts
  rw [ordered_of_lt (lower.trans upper)]
  dsimp only
  split
  · rename_i atBottom
    rw [le_antisymm atBottom (le_max_right _ _)]
  · rw [if_neg (Nat.not_le.mpr (bottom_lt lower upper))]
    exact min_le_left _ _

theorem sized_le_liquidity1 (upper : sqrtP < sqrtB) :
    liquidityForAmountsWithSlippage sqrtP sqrtA sqrtB amount0 amount1 band ≤ liquidity1 sqrtA (band.top sqrtP sqrtB) amount1 := by
  rw [liquidityForAmountsWithSlippage_inRange lower upper]
  refine (min_le_right _ _).trans ?_
  unfold getLiquidityForAmounts
  rw [ordered_of_lt (lower.trans upper)]
  dsimp only
  rw [if_neg (Nat.not_le.mpr (lt_top lower upper))]
  split
  · rename_i atTop
    have whole : band.top sqrtP sqrtB = sqrtB := le_antisymm (min_le_right _ _) atTop
    rw [whole]
  · exact min_le_right _ _

end

end LpTerminal.Mint
