import LpTerminal.Lib.Fallible
import Mathlib.Algebra.Order.Ring.Int
import Mathlib.Algebra.Order.Ring.Rat

/-!
The tick range of a strategy: quoted percentages become aligned ticks, which are widened where they do not contain
the current tick, and clamped to the aligned extremes.
-/

namespace LpTerminal.Strategy

open Fallible

def maxTick : ℤ := 887272

/-- What `priceToTick` rounds to: a price of zero or infinity has an infinite logarithm. -/
inductive RawTick
  | below
  | tick (tick : ℤ)
  | above

inductive Rounding
  | floor | ceil
  deriving DecidableEq

def floorTo (spacing tick : ℤ) : ℤ := tick / spacing * spacing

def ceilTo (spacing tick : ℤ) : ℤ := -(-tick / spacing) * spacing

def minAligned (spacing : ℤ) : ℤ := ceilTo spacing (-maxTick)

def maxAligned (spacing : ℤ) : ℤ := floorTo spacing maxTick

def alignTick (raw : RawTick) (spacing : ℤ) (mode : Rounding) : ℤ :=
  match raw with
  | .below => min (minAligned spacing) (maxAligned spacing)
  | .tick tick => min (max (if mode = .floor then floorTo spacing tick else ceilTo spacing tick) (minAligned spacing)) (maxAligned spacing)
  | .above => maxAligned spacing

structure TickRangeInput where
  centerQuotePerRisk : ℚ
  lowerPct : ℚ
  upperPct : ℚ
  currentTick : ℤ
  tickSpacing : ℤ
  token0IsRisk : Bool
  token0Decimals : Nat
  token1Decimals : Nat

structure TickRange where
  tickLower : ℤ
  tickUpper : ℤ
  quoteLower : ℚ
  quoteUpper : ℚ
  actualQuoteLower : ℚ
  actualQuoteUpper : ℚ

/-- The conversions between prices and ticks, which are computed in floating point. -/
structure Conversions where
  priceToTick : ℚ → Nat → Nat → RawTick
  tickToPrice : ℤ → Nat → Nat → ℚ

namespace TickRangeInput

variable (input : TickRangeInput) (prices : Conversions)

def quoteLower : ℚ := input.centerQuotePerRisk * (1 - input.lowerPct / 100)

def quoteUpper : ℚ := input.centerQuotePerRisk * (1 + input.upperPct / 100)

def rawLower : RawTick :=
  prices.priceToTick (if input.token0IsRisk then input.quoteLower else 1 / input.quoteUpper) input.token0Decimals input.token1Decimals

def rawUpper : RawTick :=
  prices.priceToTick (if input.token0IsRisk then input.quoteUpper else 1 / input.quoteLower) input.token0Decimals input.token1Decimals

def tickLower : ℤ :=
  let aligned := alignTick (input.rawLower prices) input.tickSpacing .floor
  if input.currentTick ≤ aligned then alignTick (.tick (input.currentTick - input.tickSpacing)) input.tickSpacing .floor else aligned

def tickUpper : ℤ :=
  let aligned := alignTick (input.rawUpper prices) input.tickSpacing .ceil
  if aligned ≤ input.currentTick then alignTick (.tick (input.currentTick + input.tickSpacing)) input.tickSpacing .ceil else aligned

end TickRangeInput

def quoteRangeToTicks (prices : Conversions) (input : TickRangeInput) : Except String TickRange := do
  demand (0 < input.centerQuotePerRisk) "center price must be positive"
  demand (0 < input.lowerPct ∧ input.lowerPct < 100 ∧ 0 < input.upperPct) "invalid range percent"
  demand (0 < input.tickSpacing) "invalid tick spacing"
  let tickLower := input.tickLower prices
  let tickUpper := input.tickUpper prices
  demand (tickLower < tickUpper) "range collapsed after tick alignment"
  let rawActualLower := prices.tickToPrice tickLower input.token0Decimals input.token1Decimals
  let rawActualUpper := prices.tickToPrice tickUpper input.token0Decimals input.token1Decimals
  return { tickLower, tickUpper, quoteLower := input.quoteLower, quoteUpper := input.quoteUpper
           actualQuoteLower := if input.token0IsRisk then rawActualLower else 1 / rawActualUpper
           actualQuoteUpper := if input.token0IsRisk then rawActualUpper else 1 / rawActualLower }

section Alignment

variable {spacing tick bound : ℤ} {raw : RawTick} {mode : Rounding}

theorem le_floorTo (positive : 0 < spacing) (aligned : spacing ∣ bound) : bound ≤ floorTo spacing tick ↔ bound ≤ tick := by
  obtain ⟨count, rfl⟩ := aligned
  unfold floorTo
  rw [mul_comm spacing count, mul_le_mul_iff_of_pos_right positive, Int.le_ediv_iff_mul_le positive]

theorem ceilTo_le (positive : 0 < spacing) (aligned : spacing ∣ bound) : ceilTo spacing tick ≤ bound ↔ tick ≤ bound := by
  have mirrored := @le_floorTo spacing (-tick) (-bound) positive (Int.dvd_neg.mpr aligned)
  unfold floorTo at mirrored
  unfold ceilTo
  rw [neg_mul]
  omega

theorem floorTo_le (positive : 0 < spacing) : floorTo spacing tick ≤ tick := Int.ediv_mul_le tick positive.ne'

theorem le_ceilTo (positive : 0 < spacing) : tick ≤ ceilTo spacing tick := by
  have mirrored := @floorTo_le spacing (-tick) positive
  unfold floorTo at mirrored
  unfold ceilTo
  rw [neg_mul]
  omega

theorem dvd_floorTo : spacing ∣ floorTo spacing tick := Int.dvd_mul_left _ _

theorem dvd_ceilTo : spacing ∣ ceilTo spacing tick := Int.dvd_mul_left _ _

theorem dvd_minAligned : spacing ∣ minAligned spacing := dvd_ceilTo

theorem dvd_maxAligned : spacing ∣ maxAligned spacing := dvd_floorTo

theorem minAligned_eq : minAligned spacing = -maxAligned spacing := by
  unfold minAligned maxAligned ceilTo floorTo
  rw [neg_neg, neg_mul]

theorem maxAligned_nonneg (positive : 0 < spacing) : 0 ≤ maxAligned spacing :=
  (le_floorTo positive (Int.dvd_zero _)).mpr (by decide)

theorem alignTick_within (positive : 0 < spacing) :
    minAligned spacing ≤ alignTick raw spacing mode ∧ alignTick raw spacing mode ≤ maxAligned spacing := by
  have wide := @maxAligned_nonneg spacing positive
  have mirrored := @minAligned_eq spacing
  unfold alignTick
  cases raw with
  | below => dsimp only; omega
  | tick tick => dsimp only; omega
  | above => dsimp only; omega

theorem dvd_alignTick : spacing ∣ alignTick raw spacing mode := by
  have chosen : ∀ {a b : ℤ}, spacing ∣ a → spacing ∣ b → spacing ∣ min a b ∧ spacing ∣ max a b := by
    intro a b first second
    rcases le_total a b with le | le
    · rw [min_eq_left le, max_eq_right le]
      exact ⟨first, second⟩
    · rw [min_eq_right le, max_eq_left le]
      exact ⟨second, first⟩
  unfold alignTick
  cases raw with
  | below => exact (chosen dvd_minAligned dvd_maxAligned).1
  | above => exact dvd_maxAligned
  | tick tick =>
    dsimp only
    split
    · exact (chosen (chosen dvd_floorTo dvd_minAligned).2 dvd_maxAligned).1
    · exact (chosen (chosen dvd_ceilTo dvd_minAligned).2 dvd_maxAligned).1

end Alignment

/-- Aligned ticks within the extremes, the current one strictly between them. -/
structure Contains (input : TickRangeInput) (range : TickRange) : Prop where
  alignedLower : input.tickSpacing ∣ range.tickLower
  alignedUpper : input.tickSpacing ∣ range.tickUpper
  lowest : minAligned input.tickSpacing ≤ range.tickLower
  highest : range.tickUpper ≤ maxAligned input.tickSpacing
  lower : range.tickLower < input.currentTick
  upper : input.currentTick < range.tickUpper

def RawTick.AtMost (raw : RawTick) (bound : ℤ) : Prop :=
  match raw with
  | .below => True
  | .tick value => value ≤ bound
  | .above => False

def RawTick.AtLeast (raw : RawTick) (bound : ℤ) : Prop :=
  match raw with
  | .below => False
  | .tick value => bound ≤ value
  | .above => True

def Refused (input : TickRangeInput) : Prop :=
  ¬ (0 < input.centerQuotePerRisk ∧ (0 < input.lowerPct ∧ input.lowerPct < 100 ∧ 0 < input.upperPct) ∧ 0 < input.tickSpacing)

def Roomy (prices : Conversions) (input : TickRangeInput) : Prop :=
  (minAligned input.tickSpacing < input.currentTick ∧ input.currentTick < maxAligned input.tickSpacing) ∨
    (input.currentTick < minAligned input.tickSpacing ∧ (input.rawUpper prices).AtMost (minAligned input.tickSpacing)) ∨
    (maxAligned input.tickSpacing < input.currentTick ∧ (input.rawLower prices).AtLeast (maxAligned input.tickSpacing)) ∨
    minAligned input.tickSpacing = maxAligned input.tickSpacing

section Ends

variable {input : TickRangeInput} {prices : Conversions} (positive : 0 < input.tickSpacing)

include positive

theorem tickLower_lt (above : minAligned input.tickSpacing < input.currentTick) : input.tickLower prices < input.currentTick := by
  unfold TickRangeInput.tickLower
  dsimp only
  split
  · have widened := @floorTo_le input.tickSpacing (input.currentTick - input.tickSpacing) positive
    unfold alignTick
    dsimp only
    rw [if_pos rfl]
    omega
  · omega

theorem lt_tickUpper (below : input.currentTick < maxAligned input.tickSpacing) : input.currentTick < input.tickUpper prices := by
  unfold TickRangeInput.tickUpper
  dsimp only
  split
  · have widened := @le_ceilTo input.tickSpacing (input.currentTick + input.tickSpacing) positive
    unfold alignTick
    dsimp only
    rw [if_neg (by decide)]
    omega
  · omega

theorem tickLower_lowest (below : input.currentTick ≤ minAligned input.tickSpacing) :
    input.tickLower prices = minAligned input.tickSpacing := by
  have aligned := (@alignTick_within _ (input.rawLower prices) .floor positive).1
  have room := @alignTick_within _ (.tick 0) .floor positive
  have widened := @floorTo_le input.tickSpacing (input.currentTick - input.tickSpacing) positive
  unfold TickRangeInput.tickLower
  dsimp only
  rw [if_pos (below.trans aligned)]
  unfold alignTick
  dsimp only
  rw [if_pos rfl]
  omega

theorem tickUpper_highest (above : maxAligned input.tickSpacing ≤ input.currentTick) :
    input.tickUpper prices = maxAligned input.tickSpacing := by
  have aligned := (@alignTick_within _ (input.rawUpper prices) .ceil positive).2
  have widened := @le_ceilTo input.tickSpacing (input.currentTick + input.tickSpacing) positive
  unfold TickRangeInput.tickUpper
  dsimp only
  rw [if_pos (aligned.trans above)]
  unfold alignTick
  dsimp only
  rw [if_neg (by decide)]
  omega

theorem alignTick_ceil_lowest {raw : RawTick} (wide : minAligned input.tickSpacing < maxAligned input.tickSpacing) :
    alignTick raw input.tickSpacing .ceil ≤ minAligned input.tickSpacing ↔ raw.AtMost (minAligned input.tickSpacing) := by
  unfold alignTick RawTick.AtMost
  cases raw with
  | below => exact iff_of_true (min_le_left _ _) trivial
  | above => exact iff_of_false (not_le.mpr wide) id
  | tick tick =>
    have least := @ceilTo_le _ tick _ positive (@dvd_minAligned input.tickSpacing)
    dsimp only
    rw [if_neg (by decide), ← least]
    omega

theorem alignTick_floor_highest {raw : RawTick} (wide : minAligned input.tickSpacing < maxAligned input.tickSpacing) :
    maxAligned input.tickSpacing ≤ alignTick raw input.tickSpacing .floor ↔ raw.AtLeast (maxAligned input.tickSpacing) := by
  unfold alignTick RawTick.AtLeast
  cases raw with
  | below => exact iff_of_false (by dsimp only; omega) id
  | above => exact iff_of_true le_rfl trivial
  | tick tick =>
    have most := @le_floorTo _ tick _ positive (@dvd_maxAligned input.tickSpacing)
    dsimp only
    rw [if_pos rfl, ← most]
    omega

theorem tickLower_within (prices : Conversions) :
    minAligned input.tickSpacing ≤ input.tickLower prices ∧ input.tickLower prices ≤ maxAligned input.tickSpacing ∧
      input.tickSpacing ∣ input.tickLower prices := by
  unfold TickRangeInput.tickLower
  dsimp only
  split
  · exact ⟨(alignTick_within positive).1, (alignTick_within positive).2, dvd_alignTick⟩
  · exact ⟨(alignTick_within positive).1, (alignTick_within positive).2, dvd_alignTick⟩

theorem tickUpper_within (prices : Conversions) :
    minAligned input.tickSpacing ≤ input.tickUpper prices ∧ input.tickUpper prices ≤ maxAligned input.tickSpacing ∧
      input.tickSpacing ∣ input.tickUpper prices := by
  unfold TickRangeInput.tickUpper
  dsimp only
  split
  · exact ⟨(alignTick_within positive).1, (alignTick_within positive).2, dvd_alignTick⟩
  · exact ⟨(alignTick_within positive).1, (alignTick_within positive).2, dvd_alignTick⟩

theorem room_iff : (input.tickLower prices < input.tickUpper prices →
      input.tickLower prices < input.currentTick ∧ input.currentTick < input.tickUpper prices) ↔ Roomy prices input := by
  obtain ⟨lowest, -, -⟩ := tickLower_within positive prices
  obtain ⟨-, highest, -⟩ := tickUpper_within positive prices
  have least := (@alignTick_within _ (input.rawUpper prices) .ceil positive).1
  have most := (@alignTick_within _ (input.rawLower prices) .floor positive).2
  unfold Roomy
  rcases (least.trans (alignTick_within positive).2).eq_or_lt with narrow | wide
  · exact iff_of_true (fun apart => by omega) (Or.inr (Or.inr (Or.inr narrow)))
  · rw [← alignTick_ceil_lowest positive wide, ← alignTick_floor_highest positive wide]
    rcases lt_or_ge (minAligned input.tickSpacing) input.currentTick with above | under
    · have lower := @tickLower_lt input prices positive above
      rcases lt_or_ge input.currentTick (maxAligned input.tickSpacing) with below | beyond
      · exact iff_of_true (fun _ => ⟨lower, lt_tickUpper positive below⟩) (Or.inl ⟨above, below⟩)
      · -- the upper end stays on the highest tick, so only a collapse is right
        have upper := @tickUpper_highest input prices positive beyond
        have aligned : input.tickLower prices < maxAligned input.tickSpacing ↔
            input.currentTick = maxAligned input.tickSpacing ∨
              alignTick (input.rawLower prices) input.tickSpacing .floor < maxAligned input.tickSpacing := by
          rcases beyond.eq_or_lt with same | past
          · exact iff_of_true (lower.trans_eq same.symm) (Or.inl same.symm)
          · unfold TickRangeInput.tickLower
            dsimp only
            rw [if_neg (by omega)]
            omega
        omega
    · have lower := @tickLower_lowest input prices positive under
      have aligned : minAligned input.tickSpacing < input.tickUpper prices ↔
          input.currentTick = minAligned input.tickSpacing ∨
            minAligned input.tickSpacing < alignTick (input.rawUpper prices) input.tickSpacing .ceil := by
        rcases under.eq_or_lt with same | below
        · exact iff_of_true (same.symm.trans_lt (lt_tickUpper positive (by omega))) (Or.inl same)
        · unfold TickRangeInput.tickUpper
          dsimp only
          rw [if_neg (by omega)]
          omega
      omega

end Ends

/-- Whatever the conversions answer, the ticks returned contain the current one exactly where there is room for them. -/
theorem quoteRangeToTicks_contains_iff (prices : Conversions) (input : TickRangeInput) :
    (∀ range, quoteRangeToTicks prices input = .ok range → Contains input range) ↔ Refused input ∨ Roomy prices input := by
  by_cases refused : Refused input
  · refine iff_of_true (fun range ran => ?_) (Or.inl refused)
    unfold quoteRangeToTicks at ran
    simp only [then_ok, demand_ok] at ran
    exact absurd ⟨ran.1, ran.2.1, ran.2.2.1⟩ refused
  · have checked := not_not.mp refused
    have positive := checked.2.2
    rw [or_iff_right refused, ← @room_iff input prices positive]
    obtain ⟨lowest, -, alignedLower⟩ := tickLower_within positive prices
    obtain ⟨-, highest, alignedUpper⟩ := tickUpper_within positive prices
    constructor
    · intro contains apart
      have returned := contains ⟨input.tickLower prices, input.tickUpper prices, _, _, _, _⟩ (by
        unfold quoteRangeToTicks
        simp only [demand_bind checked.1, demand_bind checked.2.1, demand_bind checked.2.2, demand_bind apart]
        rfl)
      exact ⟨returned.lower, returned.upper⟩
    · intro room range ran
      unfold quoteRangeToTicks at ran
      simp only [then_ok, demand_ok] at ran
      obtain ⟨-, -, -, apart, returned⟩ := ran
      cases returned
      exact ⟨alignedLower, alignedUpper, lowest, highest, (room apart).1, (room apart).2⟩

def topInput : TickRangeInput where
  centerQuotePerRisk := 340256786800000000000000000000000000000
  lowerPct := 5
  upperPct := 5
  currentTick := 887272
  tickSpacing := 60
  token0IsRisk := true
  token0Decimals := 18
  token1Decimals := 18

def topPrices : Conversions where
  priceToTick price _ _ := .tick (if price < topInput.centerQuotePerRisk then 886759 else 887760)
  tickToPrice tick _ _ := if tick < 887272 then 323243947460000000000000000000000000000 else 340256786800000000000000000000000000000

/-- A range that ends below the tick it was planned at. -/
theorem quoteRangeToTicks_one_sided :
    ¬ ∀ range, quoteRangeToTicks topPrices topInput = .ok range → Contains topInput range := by
  intro contains
  have planned : topInput.tickLower topPrices < topInput.tickUpper topPrices ∧ topInput.tickUpper topPrices < topInput.currentTick := by
    decide +kernel
  have returned := contains ⟨topInput.tickLower topPrices, topInput.tickUpper topPrices, _, _, _, _⟩ (by
    unfold quoteRangeToTicks
    simp only [demand_bind (show 0 < topInput.centerQuotePerRisk by decide),
      demand_bind (show 0 < topInput.lowerPct ∧ topInput.lowerPct < 100 ∧ 0 < topInput.upperPct by decide),
      demand_bind (show 0 < topInput.tickSpacing by decide), demand_bind planned.1]
    rfl)
  exact lt_asymm planned.2 returned.upper

end LpTerminal.Strategy
