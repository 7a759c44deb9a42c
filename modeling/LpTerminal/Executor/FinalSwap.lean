import LpTerminal.Executor.RecoveryRetry
import LpTerminal.Recovery.SwapJob
import Mathlib.Data.Rat.Floor

/-! The last check of a swap before it is sent: its quote against the pool, and its minimum against both limits. -/

namespace LpTerminal.FinalSwap

open SwapEscalation SwapJob

/-- A limit that may be no finite number. -/
inductive ImpactLimit
  | finite (bps : ℚ)
  | notFinite

inductive SwapBoundsError
  | slippage
  | minOut
  | impact

structure SwapBounds where
  amountOut : ℤ
  minOut : ℤ
  slippageBps : ℚ
  baseSlippageBps : ℚ
  maxImpactBps : Option ImpactLimit
  referenceOut : Option ℤ

def tolerated (bps : ℚ) : Prop := bps.isInt ∧ 0 ≤ bps ∧ bps ≤ 1000

instance {bps : ℚ} : Decidable (tolerated bps) := inferInstanceAs (Decidable (_ ∧ _ ∧ _))

def quoteFloor (referenceOut impact : ℤ) : ℤ := (referenceOut * (10000 - impact) + 9999).tdiv 10000

def executionFloor (referenceOut impact : ℤ) (slippageBps : ℚ) : ℤ :=
  (referenceOut * (10000 - impact) * (10000 - slippageBps.num) + 99999999).tdiv 100000000

def assertFinalSwapBounds (args : SwapBounds) : Except SwapBoundsError Unit :=
  if ¬tolerated args.slippageBps ∨ ¬tolerated args.baseSlippageBps then .error .slippage
  else if args.amountOut ≤ 0 ∨ args.minOut ≤ 0 ∨ args.amountOut < args.minOut ∨
      args.minOut < applySlippage args.amountOut args.slippageBps.num.toNat then .error .minOut
  else match args.maxImpactBps, args.referenceOut with
    | some (.finite bps), some referenceOut =>
      if referenceOut ≤ 0 ∨ bps < 0 ∨ 10000 < bps then .error .impact
      else if args.amountOut < quoteFloor referenceOut ⌊bps⌋ ∨ args.minOut < executionFloor referenceOut ⌊bps⌋ args.slippageBps then
        .error .impact
      else .ok ()
    | some .notFinite, some _ => .error .impact
    | _, _ => .ok ()

/-- A tolerance is one of the whole numbers up to 1000. -/
theorem tolerated_num {bps : ℚ} (fits : tolerated bps) : bps = bps.num ∧ 0 ≤ bps.num ∧ bps.num ≤ 1000 := by
  obtain ⟨whole, least, most⟩ := fits
  have same : bps = bps.num := Rat.eq_num_of_isInt whole
  rw [same] at least most
  exact ⟨same, by exact_mod_cast least, by exact_mod_cast most⟩

theorem impact_bounds {bps : ℚ} (least : 0 ≤ bps) (most : bps ≤ 10000) : 0 ≤ ⌊bps⌋ ∧ ⌊bps⌋ ≤ 10000 := by
  refine ⟨Int.floor_nonneg.mpr least, ?_⟩
  have below := (Int.floor_le bps).trans most
  exact_mod_cast below

/-- A ceiling is below what it is of, and not by a whole unit. -/
theorem ceiling_bounds {product spare unit : ℤ} (nonneg : 0 ≤ product) (least : 0 ≤ spare) (next : spare + 1 = unit) :
    product ≤ (product + spare).tdiv unit * unit ∧ (product + spare).tdiv unit * unit < product + unit := by
  have positive : 0 < unit := by omega
  rw [Int.tdiv_eq_ediv_of_nonneg (by omega)]
  have split := Int.mul_ediv_add_emod (product + spare) unit
  have rest := Int.emod_nonneg (product + spare) positive.ne'
  have less := Int.emod_lt_of_pos (product + spare) positive
  rw [mul_comm] at split
  constructor <;> omega

theorem accepted_within {args : SwapBounds} {bps : ℚ} {referenceOut : ℤ} (limit : args.maxImpactBps = some (.finite bps))
    (known : args.referenceOut = some referenceOut) (accepted : assertFinalSwapBounds args = .ok ()) :
    (referenceOut - args.amountOut) * 10000 ≤ referenceOut * ⌊bps⌋ ∧
      referenceOut * (10000 - ⌊bps⌋) * (10000 - args.slippageBps) ≤ args.minOut * (10000 * 10000) := by
  unfold assertFinalSwapBounds at accepted
  rw [limit, known] at accepted
  split at accepted
  · cases accepted
  rename_i tolerances
  split at accepted
  · cases accepted
  dsimp only at accepted
  split at accepted
  · cases accepted
  rename_i limits
  split at accepted
  · cases accepted
  rename_i floors
  push Not at tolerances limits floors
  obtain ⟨whole, least, most⟩ := tolerated_num tolerances.1
  obtain ⟨impact_nonneg, impact_le⟩ := impact_bounds limits.2.1 limits.2.2
  have kept : 0 ≤ referenceOut * (10000 - ⌊bps⌋) := mul_nonneg limits.1.le (by omega)
  have quote := (ceiling_bounds kept (by norm_num) (by norm_num : (9999 : ℤ) + 1 = 10000)).1
  have execution := (ceiling_bounds (mul_nonneg kept (by omega : 0 ≤ 10000 - args.slippageBps.num)) (by norm_num)
    (by norm_num : (99999999 : ℤ) + 1 = 100000000)).1
  unfold quoteFloor executionFloor at floors
  refine ⟨by linarith [floors.1], ?_⟩
  have guaranteed : referenceOut * (10000 - ⌊bps⌋) * (10000 - args.slippageBps.num) ≤ args.minOut * (10000 * 10000) := by
    linarith [floors.2]
  rw [whole]
  exact_mod_cast guaranteed

/-- The two roundings down of the minimum cost less than the two units. -/
theorem honest_accepted {args : SwapBounds} {bps : ℚ} {referenceOut : ℤ} (limit : args.maxImpactBps = some (.finite bps))
    (known : args.referenceOut = some referenceOut) (slippage : tolerated args.slippageBps) (base : tolerated args.baseSlippageBps)
    (positive : 0 < referenceOut) (least : 0 ≤ bps) (most : bps ≤ 10000)
    (honest : referenceOut * (10000 - ⌊bps⌋) + 20000 ≤ args.amountOut * 10000)
    (encoded : args.minOut = applySlippage args.amountOut args.slippageBps.num.toNat) : assertFinalSwapBounds args = .ok () := by
  obtain ⟨whole, slip_nonneg, slip_le⟩ := tolerated_num slippage
  obtain ⟨impact_nonneg, impact_le⟩ := impact_bounds least most
  have kept : 0 ≤ referenceOut * (10000 - ⌊bps⌋) := mul_nonneg positive.le (by omega)
  have output : 2 ≤ args.amountOut := by omega
  have share : (10000 - (args.slippageBps.num.toNat : ℤ)) = 10000 - args.slippageBps.num := by omega
  generalize hslip : args.slippageBps.num = slip at *
  have minimum : args.minOut * 10000 ≤ args.amountOut * (10000 - slip) ∧ args.amountOut * (10000 - slip) < args.minOut * 10000 + 10000 := by
    have product : 0 ≤ args.amountOut * (10000 - slip) := mul_nonneg (by omega) (by omega)
    rw [encoded]
    unfold applySlippage
    rw [share, Int.tdiv_eq_ediv_of_nonneg product]
    omega
  have quote := (ceiling_bounds kept (by norm_num) (by norm_num : (9999 : ℤ) + 1 = 10000)).2
  have execution := (ceiling_bounds (mul_nonneg kept (by omega : 0 ≤ 10000 - slip)) (by norm_num)
    (by norm_num : (99999999 : ℤ) + 1 = 100000000)).2
  have scaled : (referenceOut * (10000 - ⌊bps⌋) + 20000) * (10000 - slip) ≤ args.amountOut * 10000 * (10000 - slip) :=
    mul_le_mul_of_nonneg_right honest (by omega)
  have whole_output : args.minOut ≤ args.amountOut := by nlinarith
  unfold assertFinalSwapBounds
  rw [limit, known, if_neg (by simp [slippage, base])]
  rw [if_neg]
  · dsimp only
    rw [if_neg (by push Not; exact ⟨positive, least, most⟩), if_neg]
    unfold quoteFloor executionFloor
    rw [hslip]
    push Not
    constructor
    · omega
    · nlinarith
  · rw [hslip, ← encoded]
    push Not
    refine ⟨by omega, ?_, whole_output, le_rfl⟩
    nlinarith

/-- Every rung of the ladder is a tolerance, so that a retry is checked with it. -/
theorem escalated_tolerated {base : ℚ} (fits : tolerated base) (revertCount : ℕ) : tolerated (escalatedSlippageBps base revertCount) := by
  obtain ⟨whole, least, most⟩ := tolerated_num fits
  unfold escalatedSlippageBps swapRecoveryMaxSlippageBps
  rw [whole]
  have top : max (base.num : ℚ) 1000 = 1000 := max_eq_right (by exact_mod_cast most)
  have rung : ((base.num * 2 ^ min (max revertCount 0) 8 : ℤ) : ℚ) = base.num * 2 ^ min (max revertCount 0) 8 := by push_cast; rfl
  dsimp only
  rw [top, ← rung]
  have nonneg : 0 ≤ base.num * 2 ^ min (max revertCount 0) 8 := mul_nonneg least (by positivity)
  refine ⟨?_, le_min (by norm_num) (by exact_mod_cast nonneg), min_le_left _ _⟩
  rcases min_choice (1000 : ℚ) ((base.num * 2 ^ min (max revertCount 0) 8 : ℤ) : ℚ) with same | same <;> rw [same] <;> rfl

/-- What is accepted keeps both limits, and an honest quote with its own minimum is accepted on every rung. -/
theorem final_swap_bounds :
    (∀ (args : SwapBounds) (bps : ℚ) (referenceOut : ℤ), args.maxImpactBps = some (.finite bps) →
      args.referenceOut = some referenceOut → assertFinalSwapBounds args = .ok () →
        (referenceOut - args.amountOut) * 10000 ≤ referenceOut * ⌊bps⌋ ∧
          referenceOut * (10000 - ⌊bps⌋) * (10000 - args.slippageBps) ≤ args.minOut * (10000 * 10000)) ∧
    ∀ (base bps : ℚ) (revertCount : ℕ) (referenceOut amountOut : ℤ), tolerated base → 0 < referenceOut → 0 ≤ bps → bps ≤ 10000 →
      referenceOut * (10000 - ⌊bps⌋) + 20000 ≤ amountOut * 10000 →
        ∀ slippageBps, tolerated slippageBps ∨ slippageBps = escalatedSlippageBps base revertCount →
          assertFinalSwapBounds ⟨amountOut, applySlippage amountOut slippageBps.num.toNat, slippageBps, base, some (.finite bps),
            some referenceOut⟩ = .ok () := by
  refine ⟨fun args bps referenceOut limit known accepted => accepted_within limit known accepted, ?_⟩
  intro base bps revertCount referenceOut amountOut fits positive least most honest slippageBps rung
  have slippage : tolerated slippageBps := by
    rcases rung with any | rfl
    · exact any
    · exact escalated_tolerated fits revertCount
  exact honest_accepted rfl rfl slippage fits positive least most honest rfl

end LpTerminal.FinalSwap
