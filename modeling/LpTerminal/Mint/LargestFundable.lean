import LpTerminal.Mint.TickMath

/-! The MAX button: the largest deposit that two balances fund on a band. -/

namespace LpTerminal.Mint

/-- A band, by the square-root prices of its two ticks. -/
structure Band where
  tickLower : ℤ
  tickUpper : ℤ
  least : -maxTick ≤ tickLower
  ordered : tickLower < tickUpper
  most : tickUpper ≤ maxTick

def Band.sqrtA (band : Band) : ℕ := ratioAt band.tickLower

def Band.sqrtB (band : Band) : ℕ := ratioAt band.tickUpper

theorem Band.sqrtA_le (band : Band) : band.sqrtA ≤ band.sqrtB := ratioAt_mono band.ordered.le band.least band.most

theorem Band.ordered_eq (band : Band) : Mint.ordered band.sqrtA band.sqrtB = (band.sqrtA, band.sqrtB) :=
  if_neg band.sqrtA_le.not_gt

structure Sides where
  needs0 : Bool
  needs1 : Bool

variable (sqrtP : ℕ) (band : Band)

def sidesForBand : Sides := ⟨sqrtP < band.sqrtB, band.sqrtA < sqrtP⟩

/-- Without the liquidity, which no caller here reads. -/
def previewDeposit (input : ℕ) (inputIsToken0 : Bool) : Option TokenAmounts :=
  if sqrtP ≤ band.sqrtA then if inputIsToken0 then some ⟨input, 0⟩ else none
  else if band.sqrtB ≤ sqrtP then if inputIsToken0 then none else some ⟨0, input⟩
  else if inputIsToken0 then some ⟨input, amount1For band.sqrtA sqrtP (liquidity0 sqrtP band.sqrtB input)⟩
  else some ⟨amount0For sqrtP band.sqrtB (liquidity1 band.sqrtA sqrtP input), input⟩

def valueInSide1X64 (pair : TokenAmounts) : ℕ := pair.amount1 * 2 ^ 64 + pair.amount0 * sqrtP * sqrtP / 2 ^ 128

def referenceL : ℕ := 2 ^ 96

def refitToBand (prev : TokenAmounts) : TokenAmounts :=
  let target := valueInSide1X64 sqrtP prev
  let unit := valueInSide1X64 sqrtP (getAmountsForLiquidity sqrtP band.sqrtA band.sqrtB referenceL)
  if target = 0 ∨ unit = 0 then ⟨0, 0⟩ else getAmountsForLiquidity sqrtP band.sqrtA band.sqrtB (referenceL * target / unit)

def pairFrom (amount : ℕ) (side0 : Bool) : TokenAmounts :=
  (previewDeposit sqrtP band amount side0).getD (refitToBand sqrtP band (if side0 then ⟨amount, 0⟩ else ⟨0, amount⟩))

/-- A balance that is not read is `none`. -/
def largestFundable (bal0 bal1 : Option ℕ) : TokenAmounts :=
  let sides := sidesForBand sqrtP band
  let budget0 := if sides.needs0 then bal0 else none
  let budget1 := if sides.needs1 then bal1 else none
  match budget0, budget1 with
  | none, none => ⟨0, 0⟩
  | some budget0, none => pairFrom sqrtP band budget0 true
  | none, some budget1 => pairFrom sqrtP band budget1 false
  | some budget0, some budget1 =>
    let l0 := getLiquidityForAmounts sqrtP band.sqrtA band.sqrtB budget0 unbounded
    let l1 := getLiquidityForAmounts sqrtP band.sqrtA band.sqrtB unbounded budget1
    if l0 ≤ l1 then pairFrom sqrtP band budget0 true else pairFrom sqrtP band budget1 false

def pairLiquidity (pair : TokenAmounts) : ℕ := getLiquidityForAmounts sqrtP band.sqrtA band.sqrtB pair.amount0 pair.amount1

section Promise
variable (bal0 bal1 : Option ℕ)

def Within (needs : Bool) (balance : Option ℕ) (amount : ℕ) : Prop := if needs then ∀ most ∈ balance, amount ≤ most else amount = 0

/-- A band that takes both tokens takes none of one alone. -/
def Spendable : Prop :=
  match if (sidesForBand sqrtP band).needs0 then bal0 else none, if (sidesForBand sqrtP band).needs1 then bal1 else none with
  | none, none => False
  | some budget, none | none, some budget => 0 < budget
  | some budget0, some budget1 => 0 < budget0 ∧ 0 < budget1

structure Funds : Prop where
  within0 : Within (sidesForBand sqrtP band).needs0 bal0 (largestFundable sqrtP band bal0 bal1).amount0
  within1 : Within (sidesForBand sqrtP band).needs1 bal1 (largestFundable sqrtP band bal0 bal1).amount1
  proposes : Spendable sqrtP band bal0 bal1 → largestFundable sqrtP band bal0 bal1 ≠ ⟨0, 0⟩
  mints : ∀ x ∈ bal0, ∀ y ∈ bal1, 0 < pairLiquidity sqrtP band ⟨x, y⟩ →
    0 < pairLiquidity sqrtP band (largestFundable sqrtP band bal0 bal1)
  sides0 : ∀ input, (previewDeposit sqrtP band input true).isSome = (sidesForBand sqrtP band).needs0
  sides1 : ∀ input, (previewDeposit sqrtP band input false).isSome = (sidesForBand sqrtP band).needs1

/-- Where the two balances are compared: of the liquidity that each pays for, and that of the cap on token1. -/
structure Comparable (x y : ℕ) : Prop where
  uncapped : ¬(liquidity1 band.sqrtA sqrtP y = liquidity1 band.sqrtA sqrtP unbounded ∧
    liquidity1 band.sqrtA sqrtP unbounded < liquidity0 sqrtP band.sqrtB x)
  whole0 : 0 < liquidity1 band.sqrtA sqrtP y → 0 < liquidity0 sqrtP band.sqrtB x →
    liquidity0 sqrtP band.sqrtB x ≤ liquidity1 band.sqrtA sqrtP y →
      sqrtP - band.sqrtA ≤ liquidity0 sqrtP band.sqrtB x * (sqrtP - band.sqrtA) / Q96 * Q96
  whole1 : 0 < liquidity1 band.sqrtA sqrtP y → liquidity1 band.sqrtA sqrtP y < liquidity0 sqrtP band.sqrtB x →
    Q96 * (band.sqrtB - sqrtP) ≤
      liquidity1 band.sqrtA sqrtP y * Q96 * (band.sqrtB - sqrtP) / band.sqrtB / sqrtP * sqrtP * band.sqrtB

end Promise

section Derived
variable {sqrtA sqrtP sqrtB : ℕ}

theorem liquidity0_mono (sqrtP sqrtB : ℕ) {x y : ℕ} (le : x ≤ y) : liquidity0 sqrtP sqrtB x ≤ liquidity0 sqrtP sqrtB y := by
  unfold liquidity0
  split
  · exact le_rfl
  · exact Nat.div_le_div_right (Nat.div_le_div_right (Nat.mul_le_mul_right _ (Nat.mul_le_mul_right _ le)))

theorem liquidity1_mono (sqrtA sqrtP : ℕ) {x y : ℕ} (le : x ≤ y) : liquidity1 sqrtA sqrtP x ≤ liquidity1 sqrtA sqrtP y := by
  unfold liquidity1
  split
  · exact le_rfl
  · exact Nat.div_le_div_right (Nat.mul_le_mul_right _ le)

theorem derived1_le {liquidity y : ℕ} (above : sqrtA < sqrtP) (le : liquidity ≤ liquidity1 sqrtA sqrtP y) :
    amount1For sqrtA sqrtP liquidity ≤ y := by
  unfold liquidity1 at le
  rw [if_neg above.ne', Nat.le_div_iff_mul_le (by omega)] at le
  exact Nat.div_le_of_le_mul (by rw [mul_comm Q96]; exact le)

/-- Past the cap the derived amount is above the cap. -/
theorem derived1_capped {liquidity cap : ℕ} (above : sqrtA < sqrtP) (less : liquidity1 sqrtA sqrtP cap < liquidity) :
    cap ≤ amount1For sqrtA sqrtP liquidity := by
  unfold liquidity1 at less
  rw [if_neg above.ne', Nat.div_lt_iff_lt_mul (by omega)] at less
  exact (Nat.le_div_iff_mul_le (by norm_num [Q96])).mpr less.le

theorem derived0_le {liquidity x : ℕ} (above : sqrtP < sqrtB) (le : liquidity ≤ liquidity0 sqrtP sqrtB x) :
    amount0For sqrtP sqrtB liquidity ≤ x := by
  unfold liquidity0 at le
  rw [if_neg above.ne', Nat.le_div_iff_mul_le (by omega), Nat.le_div_iff_mul_le (by norm_num [Q96])] at le
  refine Nat.div_le_of_le_mul (Nat.div_le_of_le_mul ?_)
  calc liquidity * Q96 * (sqrtB - sqrtP) = liquidity * (sqrtB - sqrtP) * Q96 := by ring
    _ ≤ x * sqrtP * sqrtB := le
    _ = sqrtB * (sqrtP * x) := by ring

theorem liquidity1_pos {y : ℕ} (above : sqrtA < sqrtP) : 0 < liquidity1 sqrtA sqrtP y ↔ sqrtP - sqrtA ≤ y * Q96 := by
  unfold liquidity1
  rw [if_neg above.ne', Nat.div_pos_iff]
  exact and_iff_right (by omega)

theorem liquidity0_pos {x : ℕ} (above : sqrtP < sqrtB) :
    0 < liquidity0 sqrtP sqrtB x ↔ Q96 * (sqrtB - sqrtP) ≤ x * sqrtP * sqrtB := by
  unfold liquidity0
  rw [if_neg above.ne', Nat.div_pos_iff, and_iff_right (by omega), Nat.le_div_iff_mul_le (by norm_num [Q96]), mul_comm]

end Derived

section Button
variable {sqrtP : ℕ} {band : Band} {bal0 bal1 : Option ℕ}

theorem funds_below (below : sqrtP ≤ band.sqrtA) (inside : sqrtP < band.sqrtB) : Funds sqrtP band bal0 bal1 := by
  have sides : sidesForBand sqrtP band = ⟨true, false⟩ := by simp [sidesForBand, inside, below]
  have result : largestFundable sqrtP band bal0 bal1 = ⟨bal0.getD 0, 0⟩ := by
    unfold largestFundable
    rw [sides]
    cases bal0 <;> simp [pairFrom, previewDeposit, below]
  constructor
  · rw [sides, result]
    rintro most ⟨⟩
    exact le_rfl
  · rw [sides, result]
    rfl
  · rw [result]
    unfold Spendable
    rw [sides]
    cases bal0 with
    | none => simp
    | some x => simp; omega
  · rintro x ⟨⟩ y -
    rw [result]
    simp [pairLiquidity, getLiquidityForAmounts, band.ordered_eq, below]
  · intro input
    simp [previewDeposit, sides, below]
  · intro input
    simp [previewDeposit, sides, below]

theorem funds_above (above : band.sqrtA < sqrtP) (outside : band.sqrtB ≤ sqrtP) : Funds sqrtP band bal0 bal1 := by
  have sides : sidesForBand sqrtP band = ⟨false, true⟩ := by simp [sidesForBand, outside, above]
  have result : largestFundable sqrtP band bal0 bal1 = ⟨0, bal1.getD 0⟩ := by
    unfold largestFundable
    rw [sides]
    cases bal1 <;> simp [pairFrom, previewDeposit, above.not_ge, outside]
  constructor
  · rw [sides, result]
    rfl
  · rw [sides, result]
    rintro most ⟨⟩
    exact le_rfl
  · rw [result]
    unfold Spendable
    rw [sides]
    cases bal1 with
    | none => simp
    | some y => simp; omega
  · rintro x - y ⟨⟩
    rw [result]
    simp [pairLiquidity, getLiquidityForAmounts, band.ordered_eq, above.not_ge, outside]
  · intro input
    simp [previewDeposit, sides, above.not_ge, outside]
  · intro input
    simp [previewDeposit, sides, above.not_ge, outside]

variable (above : band.sqrtA < sqrtP) (inside : sqrtP < band.sqrtB)
include above inside

theorem liquidity_inside (pair : TokenAmounts) : pairLiquidity sqrtP band pair =
    min (liquidity0 sqrtP band.sqrtB pair.amount0) (liquidity1 band.sqrtA sqrtP pair.amount1) := by
  simp [pairLiquidity, getLiquidityForAmounts, band.ordered_eq, above.not_ge, inside.not_ge]

theorem pairFrom_inside (amount : ℕ) : pairFrom sqrtP band amount true = ⟨amount, amount1For band.sqrtA sqrtP (liquidity0 sqrtP band.sqrtB amount)⟩ ∧
    pairFrom sqrtP band amount false = ⟨amount0For sqrtP band.sqrtB (liquidity1 band.sqrtA sqrtP amount), amount⟩ := by
  simp [pairFrom, previewDeposit, above.not_ge, inside.not_ge]

/-- Of two read balances the scarcer one goes in, where the cap does not hide which it is. -/
theorem fundable_inside {x y : ℕ} (smallX : x < unbounded) (smallY : y < unbounded) : largestFundable sqrtP band (some x) (some y) =
    if liquidity0 sqrtP band.sqrtB x ≤ liquidity1 band.sqrtA sqrtP y ∨
        liquidity1 band.sqrtA sqrtP y = liquidity1 band.sqrtA sqrtP unbounded then pairFrom sqrtP band x true
    else pairFrom sqrtP band y false := by
  have cap0 := liquidity0_mono sqrtP band.sqrtB smallX.le
  have cap1 := liquidity1_mono band.sqrtA sqrtP smallY.le
  have first : pairLiquidity sqrtP band ⟨x, unbounded⟩ = _ := liquidity_inside above inside ⟨x, unbounded⟩
  have second : pairLiquidity sqrtP band ⟨unbounded, y⟩ = _ := liquidity_inside above inside ⟨unbounded, y⟩
  unfold pairLiquidity at first second
  unfold largestFundable sidesForBand
  simp only [above, inside, decide_true, if_true]
  rw [first, second]
  refine if_congr ?_ rfl rfl
  dsimp only
  omega

theorem sides_inside : sidesForBand sqrtP band = ⟨true, true⟩ := by simp [sidesForBand, above, inside]

/-- Without one of the balances the other one goes in whole. -/
theorem fundable_one (balance : ℕ) :
    largestFundable sqrtP band (some balance) none = pairFrom sqrtP band balance true ∧
      largestFundable sqrtP band none (some balance) = pairFrom sqrtP band balance false ∧
        largestFundable sqrtP band none none = ⟨0, 0⟩ := by
  simp [largestFundable, sides_inside above inside]

theorem funds_inside (small0 : ∀ x ∈ bal0, x < unbounded) (small1 : ∀ y ∈ bal1, y < unbounded) :
    Funds sqrtP band bal0 bal1 ↔ ∀ x ∈ bal0, ∀ y ∈ bal1, Comparable sqrtP band x y := by
  have sides := sides_inside above inside
  obtain ⟨preview0, preview1⟩ : (∀ input, (previewDeposit sqrtP band input true).isSome = true) ∧
      ∀ input, (previewDeposit sqrtP band input false).isSome = true := by
    simp [previewDeposit, above.not_ge, inside.not_ge]
  have forms : ∀ amount, _ := pairFrom_inside above inside
  rcases bal0 with - | x <;> rcases bal1 with - | y
  · refine iff_of_true ⟨?_, ?_, ?_, by simp, by rwa [sides], by rwa [sides]⟩ (by simp)
    · simp [Within, sides]
    · simp [Within, sides]
    · simp [Spendable, sides]
  · have result := (fundable_one above inside y).2.1.trans (forms y).2
    refine iff_of_true ⟨?_, ?_, ?_, by simp, by rwa [sides], by rwa [sides]⟩ (by simp)
    · simp [Within, sides]
    · simp [Within, sides, result]
    · simp [Spendable, sides, result]
      omega
  · have result := (fundable_one above inside x).1.trans (forms x).1
    refine iff_of_true ⟨?_, ?_, ?_, by simp, by rwa [sides], by rwa [sides]⟩ (by simp)
    · simp [Within, sides, result]
    · simp [Within, sides]
    · simp [Spendable, sides, result]
      omega
  · have result := fundable_inside above inside (small0 x rfl) (small1 y rfl)
    have whole := liquidity_inside above inside
    have cap1 := liquidity1_mono band.sqrtA sqrtP (small1 y rfl).le
    simp only [Option.mem_def, Option.some.injEq, forall_eq']
    constructor
    · intro funds
      have uncapped : ¬(liquidity1 band.sqrtA sqrtP y = liquidity1 band.sqrtA sqrtP unbounded ∧
          liquidity1 band.sqrtA sqrtP unbounded < liquidity0 sqrtP band.sqrtB x) := by
        rintro ⟨same, less⟩
        have within := funds.within1
        rw [sides, result, if_pos (.inr same), (forms x).1] at within
        exact absurd (within y rfl) (not_le.mpr ((small1 y rfl).trans_le (derived1_capped above less)))
      have mints := funds.mints x rfl y rfl
      rw [whole, result] at mints
      refine ⟨uncapped, fun pos1 pos0 le => ?_, fun pos1 less => ?_⟩
      · rw [if_pos (.inl le), (forms x).1, whole] at mints
        exact (liquidity1_pos above).mp (lt_min_iff.mp (mints (lt_min pos0 pos1))).2
      · rw [if_neg (by omega), (forms y).2, whole] at mints
        have positive := (liquidity0_pos inside).mp (lt_min_iff.mp (mints (lt_min (pos1.trans less) pos1))).1
        exact positive
    · rintro ⟨uncapped, whole0, whole1⟩
      by_cases scarcer : liquidity0 sqrtP band.sqrtB x ≤ liquidity1 band.sqrtA sqrtP y
      · rw [if_pos (.inl scarcer), (forms x).1] at result
        constructor
        · simp [Within, sides, result]
        · simpa [Within, sides, result] using derived1_le above scarcer
        · simp [Spendable, sides, result]
          omega
        · rintro _ ⟨⟩ _ ⟨⟩
          rw [result, whole, whole]
          intro both
          obtain ⟨pos0, pos1⟩ := lt_min_iff.mp both
          exact lt_min pos0 ((liquidity1_pos above).mpr (whole0 pos1 pos0 scarcer))
        · rwa [sides]
        · rwa [sides]
      · rw [if_neg (by omega), (forms y).2] at result
        constructor
        · simpa [Within, sides, result] using derived0_le inside (not_le.mp scarcer).le
        · simp [Within, sides, result]
        · simp [Spendable, sides, result]
          omega
        · rintro _ ⟨⟩ _ ⟨⟩
          rw [result, whole, whole]
          intro both
          obtain ⟨pos0, pos1⟩ := lt_min_iff.mp both
          exact lt_min ((liquidity0_pos inside).mpr (whole1 pos1 (not_le.mp scarcer))) pos1
        · rwa [sides]
        · rwa [sides]

end Button

end LpTerminal.Mint
