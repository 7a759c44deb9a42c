import LpTerminal.Mint.MintFunded
import LpTerminal.Mint.TickMath
import Mathlib.Data.Rat.Star

/-!
The slippage band of a deposit and of a withdrawal: a position sized over it costs no more than the typed
amounts, and one that leaves it pays at least its minima, at every price in between. What is paid is never worth
more than what was taken.
-/

namespace LpTerminal.Mint

open Liquidity

variable {sqrtP sqrtA sqrtB a b p q liquidity amount0 amount1 : ℕ} {band : SlippageBand}

def clamp (a b p : ℕ) : ℕ := max a (min p b)

theorem clamp_mono (later : p ≤ q) : clamp a b p ≤ clamp a b q :=
  max_le_max_left a (min_le_min_right b later)

theorem clamp_below (under : p ≤ a) : clamp a b p = a :=
  max_eq_left ((min_le_left _ _).trans under)

theorem clamp_above (inOrder : a ≤ b) (past : b ≤ p) : clamp a b p = b := by
  unfold clamp
  rw [min_eq_right past, max_eq_right inOrder]

theorem clamp_inside (past : a ≤ p) (within : p ≤ b) : clamp a b p = p := by
  unfold clamp
  rw [min_eq_left within, max_eq_right past]

theorem le_clamp (a b p : ℕ) : a ≤ clamp a b p := le_max_left _ _

theorem clamp_le (inOrder : a ≤ b) : clamp a b p ≤ b := max_le inOrder (min_le_right _ _)

theorem ordered_eq (sqrtA sqrtB : ℕ) : ordered sqrtA sqrtB = (min sqrtA sqrtB, max sqrtA sqrtB) := by
  unfold ordered
  split
  · rename_i swapped
    rw [min_eq_right swapped.le, max_eq_left swapped.le]
  · rename_i inOrder
    rw [min_eq_left (Nat.not_lt.mp inOrder), max_eq_right (Nat.not_lt.mp inOrder)]

theorem ordered_of_le (inOrder : sqrtA ≤ sqrtB) : ordered sqrtA sqrtB = (sqrtA, sqrtB) :=
  if_neg (Nat.not_lt.mpr inOrder)

theorem worth0_self (a liquidity : ℕ) : worth0 a a liquidity = 0 := by
  simp [worth0, Liquidity.amount0]

theorem worth1_self (a liquidity : ℕ) : worth1 a a liquidity = 0 := by
  simp [worth1, Liquidity.amount1]

theorem getAmountsForLiquidity_eq (inOrder : a ≤ b) :
    getAmountsForLiquidity p a b liquidity =
      ⟨⌊worth0 (clamp a b p) b liquidity⌋₊, ⌊worth1 a (clamp a b p) liquidity⌋₊⟩ := by
  unfold getAmountsForLiquidity
  rw [ordered_of_le inOrder]
  dsimp only
  split
  · rename_i none
    subst none
    simp [worth0, worth1, Liquidity.amount0, Liquidity.amount1]
  · split
    · rename_i under
      rw [clamp_below under, worth1_self, amount0For_eq inOrder, Nat.floor_zero]
    · rename_i past
      have past := Nat.not_le.mp past
      split
      · rename_i above
        rw [clamp_above inOrder above, worth0_self, amount1For_eq inOrder, Nat.floor_zero]
      · rename_i inside
        have inside := Nat.not_le.mp inside
        rw [clamp_inside past.le inside.le, amount0For_eq inside.le, amount1For_eq past.le]

theorem poolAmounts_eq (positive : 0 < a) (inOrder : a ≤ b) :
    poolAmounts p a b liquidity = ⟨⌈worth0 (clamp a b p) b liquidity⌉₊, ⌈worth1 a (clamp a b p) liquidity⌉₊⟩ := by
  unfold poolAmounts
  split
  · rename_i under
    rw [clamp_below under, worth1_self, poolAmount0_eq positive inOrder, Nat.ceil_zero]
  · rename_i past
    have past := Nat.not_le.mp past
    split
    · rename_i inside
      rw [clamp_inside past.le inside.le, poolAmount0_eq (positive.trans past) inside.le, poolAmount1_eq past.le]
    · rename_i above
      have above := Nat.not_lt.mp above
      rw [clamp_above inOrder above, worth0_self, poolAmount1_eq inOrder, Nat.ceil_zero]

theorem worth0_clamp (positive : 0 < a) (inOrder : a ≤ b) (later : p ≤ q) :
    worth0 (clamp a b q) b liquidity ≤ worth0 (clamp a b p) b liquidity :=
  worth0_anti (positive.trans_le (le_clamp a b p)) (clamp_mono later) (clamp_le inOrder)

theorem worth1_clamp (later : p ≤ q) : worth1 a (clamp a b p) liquidity ≤ worth1 a (clamp a b q) liquidity :=
  worth1_widen (clamp_mono later)

theorem minAmountsForLiquidity_eq (inOrder : a ≤ b) :
    minAmountsForLiquidity sqrtP a b liquidity band =
      ⟨⌊worth0 (clamp a b (band.high sqrtP)) b liquidity⌋₊, ⌊worth1 a (clamp a b (band.low sqrtP)) liquidity⌋₊⟩ := by
  have top : clamp a b (if b < band.high sqrtP then b else band.high sqrtP) = clamp a b (band.high sqrtP) := by
    split
    · rename_i past
      rw [clamp_above inOrder le_rfl, clamp_above inOrder past.le]
    · rfl
  have bottom : clamp a b (if band.low sqrtP < a then a else band.low sqrtP) = clamp a b (band.low sqrtP) := by
    split
    · rename_i under
      rw [clamp_below le_rfl, clamp_below under.le]
    · rfl
  unfold minAmountsForLiquidity
  rw [ordered_of_le inOrder]
  dsimp only
  rw [getAmountsForLiquidity_eq inOrder, getAmountsForLiquidity_eq inOrder, top, bottom]

theorem minAmountsForLiquidity_ordered (sqrtA sqrtB : ℕ) :
    minAmountsForLiquidity sqrtP sqrtA sqrtB liquidity band =
      minAmountsForLiquidity sqrtP (min sqrtA sqrtB) (max sqrtA sqrtB) liquidity band := by
  unfold minAmountsForLiquidity
  rw [ordered_eq, ordered_of_le (min_le_max)]

theorem getAmountsForLiquidity_ordered (sqrtA sqrtB : ℕ) :
    getAmountsForLiquidity p sqrtA sqrtB liquidity = getAmountsForLiquidity p (min sqrtA sqrtB) (max sqrtA sqrtB) liquidity := by
  unfold getAmountsForLiquidity
  rw [ordered_eq, ordered_of_le (min_le_max)]

/-- At every price of the band, in the range or not, the liquidity pays at least both minima. -/
theorem minAmounts_paid (sqrtP sqrtA sqrtB liquidity p : ℕ) (band : SlippageBand) (priced : 0 < sqrtA ∧ 0 < sqrtB)
    (above : band.low sqrtP ≤ p) (below : p ≤ band.high sqrtP) :
    (minAmountsForLiquidity sqrtP sqrtA sqrtB liquidity band).amount0Min ≤ (getAmountsForLiquidity p sqrtA sqrtB liquidity).amount0 ∧
      (minAmountsForLiquidity sqrtP sqrtA sqrtB liquidity band).amount1Min ≤ (getAmountsForLiquidity p sqrtA sqrtB liquidity).amount1 := by
  have positive : 0 < min sqrtA sqrtB := lt_min priced.1 priced.2
  have inOrder : min sqrtA sqrtB ≤ max sqrtA sqrtB := min_le_max
  rw [minAmountsForLiquidity_ordered, getAmountsForLiquidity_ordered, minAmountsForLiquidity_eq inOrder, getAmountsForLiquidity_eq inOrder]
  constructor
  · exact Nat.floor_mono (worth0_clamp positive inOrder below)
  · exact Nat.floor_mono (worth1_clamp above)

/-- From below the range, over a band that reaches into it. -/
theorem minAmounts_paid_below :
    let mins := minAmountsForLiquidity 1000000 1100000 2000000 (5 * 10 ^ 40) (slippageBand 5000 (by decide))
    let paid := getAmountsForLiquidity 1200000 1100000 2000000 (5 * 10 ^ 40)
    mins.amount0Min ≤ paid.amount0 ∧ mins.amount1Min ≤ paid.amount1 :=
  minAmounts_paid 1000000 1100000 2000000 (5 * 10 ^ 40) 1200000 (slippageBand 5000 (by decide)) (by decide)
    (((low_le _ _)).trans (by decide)) (by decide +kernel)

theorem worth0_funded (positive : 0 < a) (inOrder : a ≤ b) (funded : liquidity ≤ liquidity0 a b amount0) :
    worth0 a b liquidity ≤ amount0 := by
  rcases inOrder.eq_or_lt with rfl | wide
  · rw [worth0_self]
    exact Nat.cast_nonneg _
  · refine amount0_le (Nat.cast_pos.mpr Q96_pos) (Nat.cast_pos.mpr positive) (Nat.cast_lt.mpr wide) ?_
    unfold liquidity0 at funded
    rw [if_neg wide.ne'] at funded
    have whole : liquidity * (b - a) ≤ amount0 * a * b / Q96 := (Nat.le_div_iff_mul_le (by omega)).mp funded
    calc (liquidity : ℚ) * (b - a) = ((liquidity * (b - a) : ℕ) : ℚ) := by push_cast [Nat.cast_sub wide.le]; rfl
      _ ≤ ((amount0 * a * b / Q96 : ℕ) : ℚ) := by exact_mod_cast whole
      _ ≤ ((amount0 * a * b : ℕ) : ℚ) / (Q96 : ℕ) := Nat.cast_div_le
      _ = amount0 * (a * b / Q96) := by push_cast; ring

theorem worth1_funded (inOrder : a ≤ b) (funded : liquidity ≤ liquidity1 a b amount1) : worth1 a b liquidity ≤ amount1 := by
  rcases inOrder.eq_or_lt with rfl | wide
  · rw [worth1_self]
    exact Nat.cast_nonneg _
  · refine amount1_le (Nat.cast_pos.mpr Q96_pos) ?_
    unfold liquidity1 at funded
    rw [if_neg wide.ne'] at funded
    have whole : liquidity * (b - a) ≤ amount1 * Q96 := (Nat.le_div_iff_mul_le (by omega)).mp funded
    calc (liquidity : ℚ) * (b - a) = ((liquidity * (b - a) : ℕ) : ℚ) := by push_cast [Nat.cast_sub wide.le]; rfl
      _ ≤ amount1 * Q96 := by exact_mod_cast whole

theorem sized_below (inOrder : a ≤ b) (under : sqrtP ≤ a) :
    liquidityForAmountsWithSlippage sqrtP a b amount0 amount1 band ≤ liquidity0 a b amount0 := by
  unfold liquidityForAmountsWithSlippage
  rw [ordered_of_le inOrder]
  dsimp only
  rw [if_pos under]
  refine (min_le_left _ _).trans ?_
  unfold getLiquidityForAmounts
  rw [ordered_of_le inOrder]
  dsimp only
  rw [if_pos le_rfl]

theorem sized_above (inOrder : a ≤ b) (past : a < sqrtP) (above : b ≤ sqrtP) :
    liquidityForAmountsWithSlippage sqrtP a b amount0 amount1 band ≤ liquidity1 a b amount1 := by
  unfold liquidityForAmountsWithSlippage
  rw [ordered_of_le inOrder]
  dsimp only
  rw [if_neg (Nat.not_le.mpr past), if_pos above]
  refine (min_le_right _ _).trans ?_
  unfold getLiquidityForAmounts
  rw [ordered_of_le inOrder]
  dsimp only
  split
  · rename_i narrow
    have point : b = a := narrow.antisymm inOrder
    unfold liquidity0
    rw [if_pos point]
    exact Nat.zero_le _
  · rw [if_pos le_rfl]

theorem liquidityForAmountsWithSlippage_ordered (sqrtA sqrtB : ℕ) :
    liquidityForAmountsWithSlippage sqrtP sqrtA sqrtB amount0 amount1 band =
      liquidityForAmountsWithSlippage sqrtP (min sqrtA sqrtB) (max sqrtA sqrtB) amount0 amount1 band := by
  unfold liquidityForAmountsWithSlippage
  rw [ordered_eq, ordered_of_le (min_le_max)]

/-- A price that starts at or below the range stays there, and one at or above it as well: a position is one-sided
from the ends of its range on. -/
def SameSide (sqrtP a b p : ℕ) : Prop :=
  (sqrtP ≤ a → p ≤ a) ∧ (b ≤ sqrtP → b ≤ p)

theorem sized_worth (positive : 0 < a) (inOrder : a ≤ b) (above : band.low sqrtP ≤ p) (below : p ≤ band.high sqrtP)
    (stays : SameSide sqrtP a b p) :
    worth0 (clamp a b p) b (liquidityForAmountsWithSlippage sqrtP a b amount0 amount1 band) ≤ amount0 ∧
      worth1 a (clamp a b p) (liquidityForAmountsWithSlippage sqrtP a b amount0 amount1 band) ≤ amount1 := by
  by_cases under : sqrtP ≤ a
  · rw [clamp_below (stays.1 under), worth1_self]
    exact ⟨worth0_funded positive inOrder (sized_below inOrder under), Nat.cast_nonneg _⟩
  · have past := Nat.not_le.mp under
    by_cases aboveAll : b ≤ sqrtP
    · rw [clamp_above inOrder (stays.2 aboveAll), worth0_self]
      exact ⟨Nat.cast_nonneg _, worth1_funded inOrder (sized_above inOrder past aboveAll)⟩
    · -- in range each token is dearest at one end of the band
      have inside := Nat.not_le.mp aboveAll
      have bottom : clamp a b (band.low sqrtP) = band.bottom sqrtP a := by
        unfold clamp SlippageBand.bottom
        rw [min_eq_left ((low_le band sqrtP).trans inside.le), max_comm]
      have top : clamp a b (band.high sqrtP) = band.top sqrtP b := by
        unfold clamp SlippageBand.top
        exact max_eq_right (lt_top past inside).le
      have least : 0 < band.bottom sqrtP a := positive.trans_le (le_max_right _ _)
      constructor
      · refine (worth0_clamp positive inOrder above).trans ?_
        rw [bottom]
        exact worth0_funded least (bottom_lt past inside).le (sized_le_liquidity0 past inside)
      · refine (worth1_clamp below).trans ?_
        rw [top]
        exact worth1_funded (lt_top past inside).le (sized_le_liquidity1 past inside)

theorem sized_cost (positive : 0 < min sqrtA sqrtB) (above : band.low sqrtP ≤ p) (below : p ≤ band.high sqrtP)
    (stays : SameSide sqrtP (min sqrtA sqrtB) (max sqrtA sqrtB) p) :
    let cost := poolAmounts p (min sqrtA sqrtB) (max sqrtA sqrtB)
      (liquidityForAmountsWithSlippage sqrtP sqrtA sqrtB amount0 amount1 band)
    cost.amount0 ≤ amount0 ∧ cost.amount1 ≤ amount1 := by
  obtain ⟨first, second⟩ := @sized_worth sqrtP _ _ p amount0 amount1 band positive min_le_max above below stays
  rw [← liquidityForAmountsWithSlippage_ordered] at first second
  rw [poolAmounts_eq positive min_le_max]
  exact ⟨Nat.ceil_le.mpr first, Nat.ceil_le.mpr second⟩

/-- A position of the sized liquidity costs at most the typed amounts at every such price, each leg rounded up. -/
theorem sized_funded (sqrtP sqrtA sqrtB amount0 amount1 p : ℕ) (band : SlippageBand) (priced : 0 < sqrtA ∧ 0 < sqrtB)
    (above : band.low sqrtP ≤ p) (below : p ≤ band.high sqrtP) (stays : SameSide sqrtP (min sqrtA sqrtB) (max sqrtA sqrtB) p) :
    let cost := poolAmounts p (min sqrtA sqrtB) (max sqrtA sqrtB)
      (liquidityForAmountsWithSlippage sqrtP sqrtA sqrtB amount0 amount1 band)
    cost.amount0 ≤ amount0 ∧ cost.amount1 ≤ amount1 :=
  sized_cost (lt_min priced.1 priced.2) above below stays

def narrowBand : SlippageBand := ⟨999000000, 1001000000, by decide, by decide⟩

theorem sized_funded_narrow :
    let cost := poolAmounts 1001000 500000 2000000 (liquidityForAmountsWithSlippage 1000000 2000000 500000 7 9 narrowBand)
    cost.amount0 ≤ 7 ∧ cost.amount1 ≤ 9 :=
  sized_funded 1000000 2000000 500000 7 9 1001000 narrowBand (by decide) (by decide) (by decide) (by unfold SameSide; decide)

theorem clamp_nearest (inOrder : a ≤ b) :
    0 ≤ ((clamp a b p : ℚ) - clamp a b q) * (clamp a b p * clamp a b q - q * q) := by
  have low : (a : ℚ) ≤ clamp a b p := Nat.cast_le.mpr (le_clamp a b p)
  have high : (clamp a b p : ℚ) ≤ b := Nat.cast_le.mpr (clamp_le inOrder)
  rcases le_total q a with under | past
  · rw [clamp_below under]
    have under : (q : ℚ) ≤ a := Nat.cast_le.mpr under
    exact mul_nonneg (sub_nonneg.mpr low) (by nlinarith)
  · rcases le_total b q with above | within
    · rw [clamp_above inOrder above]
      have above : (b : ℚ) ≤ q := Nat.cast_le.mpr above
      exact mul_nonneg_of_nonpos_of_nonpos (sub_nonpos.mpr high) (by nlinarith)
    · rw [clamp_inside past within, ← sub_mul]
      nlinarith [mul_nonneg (Nat.cast_nonneg (α := ℚ) q) (sq_nonneg ((clamp a b p : ℚ) - q))]

/-- Amounts in units of the second token, at a square-root price. -/
def valueAt (sqrtP : ℕ) (amounts : TokenAmounts) : ℚ := amounts.amount0 * ((sqrtP : ℚ) / Q96) ^ 2 + amounts.amount1

/-- What a pool pays for a liquidity is worth no more, at the price of the day, than what it took for it at any price. -/
theorem withdrawal_worth_less (sqrtA sqrtB liquidity p q : ℕ) (priced : 0 < sqrtA ∧ 0 < sqrtB) :
    valueAt q (getAmountsForLiquidity q sqrtA sqrtB liquidity) ≤ valueAt q (poolAmounts p (min sqrtA sqrtB) (max sqrtA sqrtB) liquidity) := by
  have positive : 0 < min sqrtA sqrtB := lt_min priced.1 priced.2
  have inOrder : min sqrtA sqrtB ≤ max sqrtA sqrtB := min_le_max
  rw [getAmountsForLiquidity_ordered, getAmountsForLiquidity_eq inOrder, poolAmounts_eq positive inOrder]
  generalize min sqrtA sqrtB = a at *
  generalize max sqrtA sqrtB = b at *
  have least := @value_least ℚ _ _ _ Q96 liquidity a b (clamp a b p) (clamp a b q) q (Nat.cast_pos.mpr Q96_pos) (Nat.cast_nonneg _)
    (Nat.cast_pos.mpr (positive.trans_le (le_clamp a b p))) (Nat.cast_pos.mpr (positive.trans_le (le_clamp a b q)))
    (Nat.cast_pos.mpr (positive.trans_le inOrder)) (clamp_nearest inOrder)
  have held0 : 0 ≤ worth0 (clamp a b q) b liquidity := (worth0_self b liquidity).symm.trans_le
    (worth0_anti (positive.trans_le (le_clamp a b q)) (clamp_le inOrder) le_rfl)
  have held1 : 0 ≤ worth1 a (clamp a b q) liquidity := (worth1_self a liquidity).symm.trans_le (worth1_widen (le_clamp a b q))
  unfold valueAt
  calc (⌊worth0 (clamp a b q) b liquidity⌋₊ : ℚ) * ((q : ℚ) / Q96) ^ 2 + ⌊worth1 a (clamp a b q) liquidity⌋₊
      ≤ worth0 (clamp a b q) b liquidity * ((q : ℚ) / Q96) ^ 2 + worth1 a (clamp a b q) liquidity := by
        gcongr
        · exact Nat.floor_le held0
        · exact Nat.floor_le held1
    _ ≤ worth0 (clamp a b p) b liquidity * ((q : ℚ) / Q96) ^ 2 + worth1 a (clamp a b p) liquidity := least
    _ ≤ ⌈worth0 (clamp a b p) b liquidity⌉₊ * ((q : ℚ) / Q96) ^ 2 + ⌈worth1 a (clamp a b p) liquidity⌉₊ := by
        gcongr
        · exact Nat.le_ceil _
        · exact Nat.le_ceil _

theorem withdrawal_worth_less_moved :
    valueAt 5 (getAmountsForLiquidity 5 3 7 1000) ≤ valueAt 5 (poolAmounts 4 (min 3 7) (max 3 7) 1000) :=
  withdrawal_worth_less 3 7 1000 4 5 (by decide)

end LpTerminal.Mint
