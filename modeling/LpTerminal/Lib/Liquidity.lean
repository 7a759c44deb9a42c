import Mathlib.Algebra.Order.Floor.Div
import Mathlib.Algebra.Order.Floor.Semifield
import Mathlib.Tactic.FieldSimp
import Mathlib.Tactic.Ring

/-!
Concentrated liquidity: what a liquidity is worth between two square-root prices, exactly, and what
integer divisions make of it. Prices are counted in units of `1 / scale`.
-/

namespace Liquidity

variable {K : Type*} [Field K] [LinearOrder K] [IsStrictOrderedRing K]

/-- The first token between the prices `a` and `b`. -/
def amount0 (scale liquidity a b : K) : K :=
  liquidity * scale * (b - a) / (a * b)

/-- The second token between the prices `a` and `b`. -/
def amount1 (scale liquidity a b : K) : K :=
  liquidity * (b - a) / scale

variable {scale liquidity more a b c d q funds : K}

theorem amount0_mono (scaled : 0 ≤ scale) (positive : 0 < a) (ordered : a ≤ b) (larger : liquidity ≤ more) :
    amount0 scale liquidity a b ≤ amount0 scale more a b := by
  unfold amount0
  have width : 0 ≤ b - a := sub_nonneg.mpr ordered
  have prices : 0 ≤ a * b := mul_nonneg positive.le (positive.le.trans ordered)
  gcongr

theorem amount0_anti (scaled : 0 ≤ scale) (funded : 0 ≤ liquidity) (positive : 0 < a) (later : a ≤ c) (ordered : c ≤ b) :
    amount0 scale liquidity c b ≤ amount0 scale liquidity a b := by
  unfold amount0
  have above : 0 < c := positive.trans_le later
  have top : 0 < b := above.trans_le ordered
  have width : 0 ≤ b - c := sub_nonneg.mpr ordered
  have wider : 0 ≤ b - a := width.trans (sub_le_sub_left later b)
  gcongr

theorem amount1_mono (scaled : 0 ≤ scale) (ordered : a ≤ b) (larger : liquidity ≤ more) :
    amount1 scale liquidity a b ≤ amount1 scale more a b := by
  unfold amount1
  have width : 0 ≤ b - a := sub_nonneg.mpr ordered
  gcongr

theorem amount1_widen (scaled : 0 ≤ scale) (funded : 0 ≤ liquidity) (wider : b ≤ c) :
    amount1 scale liquidity a b ≤ amount1 scale liquidity a c := by
  unfold amount1
  gcongr

/-- At the price `q` a position is worth least where its own price `d` is nearest to `q`. -/
theorem value_least (scaled : 0 < scale) (funded : 0 ≤ liquidity) (above : 0 < c) (positive : 0 < d) (top : 0 < b)
    (nearest : 0 ≤ (c - d) * (c * d - q * q)) :
    amount0 scale liquidity d b * (q / scale) ^ 2 + amount1 scale liquidity a d ≤
      amount0 scale liquidity c b * (q / scale) ^ 2 + amount1 scale liquidity a c := by
  have gap : amount0 scale liquidity c b * (q / scale) ^ 2 + amount1 scale liquidity a c -
      (amount0 scale liquidity d b * (q / scale) ^ 2 + amount1 scale liquidity a d) =
        liquidity / (scale * (c * d)) * ((c - d) * (c * d - q * q)) := by
    unfold amount0 amount1
    field_simp
    ring
  rw [← sub_nonneg, gap]
  exact mul_nonneg (div_nonneg funded (mul_pos scaled (mul_pos above positive)).le) nearest

theorem amount0_le (scaled : 0 < scale) (positive : 0 < a) (ordered : a < b) (funded : liquidity * (b - a) ≤ funds * (a * b / scale)) :
    amount0 scale liquidity a b ≤ funds := by
  unfold amount0
  have prices : 0 < a * b := mul_pos positive (positive.trans ordered)
  rw [div_le_iff₀ prices]
  calc liquidity * scale * (b - a) = liquidity * (b - a) * scale := by ring
    _ ≤ funds * (a * b / scale) * scale := mul_le_mul_of_nonneg_right funded scaled.le
    _ = funds * (a * b) := by rw [mul_assoc, div_mul_cancel₀ _ scaled.ne']

theorem amount1_le (scaled : 0 < scale) (funded : liquidity * (b - a) ≤ funds * scale) : amount1 scale liquidity a b ≤ funds :=
  (div_le_iff₀ scaled).mpr funded

variable [FloorSemiring K]

theorem ceil_div_eq_ceilDiv (m : ℕ) {n : ℕ} (positive : 0 < n) : ⌈(m : K) / n⌉₊ = m ⌈/⌉ n := by
  refine eq_of_forall_ge_iff fun k => ?_
  rw [Nat.ceil_le, div_le_iff₀ (Nat.cast_pos.mpr positive), ceilDiv_le_iff_le_mul positive, mul_comm n k]
  exact_mod_cast Iff.rfl

theorem ceilDiv_ceilDiv (m : ℕ) {n k : ℕ} (positive : 0 < n) (also : 0 < k) : m ⌈/⌉ n ⌈/⌉ k = m ⌈/⌉ (n * k) := by
  refine eq_of_forall_ge_iff fun bound => ?_
  rw [ceilDiv_le_iff_le_mul also, ceilDiv_le_iff_le_mul positive, ceilDiv_le_iff_le_mul (Nat.mul_pos positive also), mul_assoc]

variable {scale liquidity a b : ℕ}

theorem floor_amount0 (ordered : a ≤ b) :
    ⌊amount0 (scale : K) liquidity a b⌋₊ = liquidity * scale * (b - a) / b / a := by
  unfold amount0
  rw [Nat.div_div_eq_div_mul, mul_comm b a, ← @Nat.floor_div_eq_div K]
  push_cast [Nat.cast_sub ordered]
  rfl

theorem ceil_amount0 (positive : 0 < a) (ordered : a ≤ b) :
    ⌈amount0 (scale : K) liquidity a b⌉₊ = liquidity * scale * (b - a) ⌈/⌉ b ⌈/⌉ a := by
  have top : 0 < b := positive.trans_le ordered
  unfold amount0
  rw [ceilDiv_ceilDiv _ top positive, mul_comm b a, ← @ceil_div_eq_ceilDiv K _ _ _ _ _ _ (Nat.mul_pos positive top)]
  push_cast [Nat.cast_sub ordered]
  rfl

theorem floor_amount1 (ordered : a ≤ b) : ⌊amount1 (scale : K) liquidity a b⌋₊ = liquidity * (b - a) / scale := by
  unfold amount1
  rw [← @Nat.floor_div_eq_div K]
  push_cast [Nat.cast_sub ordered]
  rfl

theorem ceil_amount1 (positive : 0 < scale) (ordered : a ≤ b) :
    ⌈amount1 (scale : K) liquidity a b⌉₊ = liquidity * (b - a) ⌈/⌉ scale := by
  unfold amount1
  rw [← @ceil_div_eq_ceilDiv K _ _ _ _ _ _ positive]
  push_cast [Nat.cast_sub ordered]
  rfl

end Liquidity
