import LpTerminal.Mint.Amounts
import Mathlib.Data.Nat.Bitwise

/-!
The square-root price grows with the tick: one more tick sets the lowest clear bit and clears the bits
below it, and each factor is no more than all the factors below it together.
-/

namespace LpTerminal.Mint

/-- The factors of the bits of `n` from the lowest on. -/
def scaled : List ℕ → ℕ → ℕ → ℕ
  | [], _, ratio => ratio
  | factor :: rest, n, ratio => scaled rest (n / 2) (if n % 2 = 1 then ratio * factor / 2 ^ 128 else ratio)

theorem scaled_mono {factors : List ℕ} {n ratio more : ℕ} (larger : ratio ≤ more) : scaled factors n ratio ≤ scaled factors n more := by
  induction factors generalizing n ratio more with
  | nil => exact larger
  | cons factor rest ih =>
    refine ih ?_
    split
    · exact Nat.div_le_div_right (Nat.mul_le_mul_right factor larger)
    · exact larger

/-- Each factor takes at least as much as the factors before it; `whole` is the ratio without them, `rest` with all. -/
def dominated : List ℕ → ℕ → ℕ → Prop
  | [], _, _ => True
  | factor :: factors, whole, rest => whole * factor / 2 ^ 128 ≤ rest ∧ dominated factors whole (rest * factor / 2 ^ 128)

theorem scaled_succ {factors : List ℕ} {n whole rest : ℕ} (below : dominated factors whole rest) (bounded : n + 1 < 2 ^ factors.length) :
    scaled factors (n + 1) whole ≤ scaled factors n rest := by
  induction factors generalizing n rest with
  | nil => simp at bounded
  | cons factor factors ih =>
    obtain ⟨less, below⟩ := below
    rw [List.length_cons, Nat.pow_succ] at bounded
    unfold scaled
    rcases Nat.mod_two_eq_zero_or_one n with even | odd
    · rw [if_pos (by omega), if_neg (by omega), show (n + 1) / 2 = n / 2 by omega]
      exact scaled_mono less
    · rw [if_neg (by omega), if_pos odd, show (n + 1) / 2 = n / 2 + 1 by omega]
      exact ih below (by omega)

def tickFactors : List ℕ := 0xfffcb933bd6fad37aa2d162d1a594001 :: ratioFactors.map Prod.snd

theorem tickFactors_dominated : dominated tickFactors (2 ^ 128) (2 ^ 128) := by
  simp only [tickFactors, ratioFactors, List.map_cons, List.map_nil, dominated]
  decide

def absRatio (n : ℕ) : ℕ := scaled tickFactors n (2 ^ 128)

theorem absRatio_anti {n m : ℕ} (later : n ≤ m) (bounded : m ≤ maxTick) : absRatio m ≤ absRatio n := by
  induction m, later using Nat.le_induction with
  | base => exact le_rfl
  | succ m _ ih =>
    have range : m + 1 < 2 ^ tickFactors.length := lt_of_le_of_lt bounded (by decide)
    exact (scaled_succ tickFactors_dominated range).trans (ih (by omega))

def Bits : ℕ → List (ℕ × ℕ) → Prop
  | _, [] => True
  | i, (bit, _) :: rest => bit = 2 ^ i ∧ Bits (i + 1) rest

theorem foldl_scaled {pairs : List (ℕ × ℕ)} {i n ratio : ℕ} (bits : Bits i pairs) :
    pairs.foldl (fun ratio (bit, factor) => if n &&& bit ≠ 0 then ratio * factor / 2 ^ 128 else ratio) ratio =
      scaled (pairs.map Prod.snd) (n / 2 ^ i) ratio := by
  induction pairs generalizing i ratio with
  | nil => rfl
  | cons pair rest ih =>
    obtain ⟨bit, factor⟩ := pair
    obtain ⟨rfl, bits⟩ := bits
    have set : n &&& 2 ^ i ≠ 0 ↔ n / 2 ^ i % 2 = 1 := by
      rw [Nat.and_two_pow, Nat.testBit_eq_decide_div_mod_eq]
      by_cases odd : n / 2 ^ i % 2 = 1 <;> simp [odd]
    rw [List.foldl_cons, ih bits, List.map_cons]
    conv_rhs => rw [scaled]
    rw [Nat.pow_succ, Nat.div_div_eq_div_mul]
    simp only [set]

theorem absRatio_eq (n : ℕ) :
    ratioFactors.foldl (fun ratio (bit, factor) => if n &&& bit ≠ 0 then ratio * factor / 2 ^ 128 else ratio)
      (if n &&& 0x1 ≠ 0 then 0xfffcb933bd6fad37aa2d162d1a594001 else 2 ^ 128) = absRatio n := by
  have bits : Bits 1 ratioFactors := by
    simp only [ratioFactors, Bits]
    decide
  rw [foldl_scaled bits]
  unfold absRatio tickFactors
  conv_rhs => rw [scaled]
  rw [Nat.and_one_is_mod, Nat.pow_one, Nat.mul_div_cancel_left _ (by decide : 0 < 2 ^ 128)]
  congr 1
  rcases Nat.mod_two_eq_zero_or_one n with even | odd
  · simp [even]
  · simp [odd]

def fullRatio (tick : ℤ) : ℕ := if 0 < tick then (2 ^ 256 - 1) / absRatio tick.natAbs else absRatio tick.natAbs

theorem absRatio_pos {n : ℕ} (bounded : n ≤ maxTick) : 0 < absRatio n :=
  lt_of_lt_of_le (by decide) (absRatio_anti bounded le_rfl)

theorem fullRatio_mono {a b : ℤ} (later : a ≤ b) (least : -maxTick ≤ a) (most : b ≤ maxTick) : fullRatio a ≤ fullRatio b := by
  unfold fullRatio
  by_cases above : 0 < b
  · rw [if_pos above]
    split
    · exact Nat.div_le_div_left (absRatio_anti (by omega) (by omega)) (absRatio_pos (by omega))
    · have whole : absRatio a.natAbs ≤ 2 ^ 128 := absRatio_anti (Nat.zero_le _) (by omega)
      have small : absRatio b.natAbs ≤ absRatio 1 := absRatio_anti (by omega) (by omega)
      calc absRatio a.natAbs ≤ 2 ^ 128 := whole
        _ ≤ (2 ^ 256 - 1) / absRatio 1 := by decide
        _ ≤ (2 ^ 256 - 1) / absRatio b.natAbs := Nat.div_le_div_left small (absRatio_pos (by omega))
  · rw [if_neg above, if_neg (by omega)]
    exact absRatio_anti (by omega) (by omega)

theorem getSqrtRatioAtTick_eq {tick : ℤ} (least : -maxTick ≤ tick) (most : tick ≤ maxTick) :
    getSqrtRatioAtTick tick = some (fullRatio tick / 2 ^ 32 + if fullRatio tick % 2 ^ 32 = 0 then 0 else 1) := by
  unfold getSqrtRatioAtTick
  dsimp only
  rw [if_neg (by omega), absRatio_eq]
  rfl

theorem roundedUp_mono {n m : ℕ} (larger : n ≤ m) :
    n / 2 ^ 32 + (if n % 2 ^ 32 = 0 then 0 else 1) ≤ m / 2 ^ 32 + if m % 2 ^ 32 = 0 then 0 else 1 := by
  split <;> split <;> omega

def ratioAt (tick : ℤ) : ℕ := (getSqrtRatioAtTick tick).getD 0

theorem ratioAt_mono {a b : ℤ} (later : a ≤ b) (least : -maxTick ≤ a) (most : b ≤ maxTick) : ratioAt a ≤ ratioAt b := by
  unfold ratioAt
  rw [getSqrtRatioAtTick_eq least (later.trans most), getSqrtRatioAtTick_eq (least.trans later) most]
  exact roundedUp_mono (fullRatio_mono later least most)

theorem ratioAt_pos {tick : ℤ} (least : -maxTick ≤ tick) (most : tick ≤ maxTick) : 0 < ratioAt tick :=
  lt_of_lt_of_le (by decide) (@ratioAt_mono (-maxTick) tick least le_rfl most)

end LpTerminal.Mint
