import Mathlib.Tactic.Linarith
import Mathlib.Tactic.Positivity

/-!
One span of an exact-input swap: how far the input moves the price towards a target, what it costs and
what the fee takes. The price never passes the target.
-/

namespace ConcentratedPool

def Q96 : ℤ := 2 ^ 96

def feeUnits : ℤ := 1000000

def ceilDiv (a d : ℤ) : ℤ := (a + d - 1) / d

/-- What moving the price down by `a..b` takes of the first token, rounded up. -/
def input0 (liquidity a b : ℤ) : ℤ := ceilDiv (ceilDiv (liquidity * Q96 * (b - a)) b) a

/-- What moving the price up by `a..b` takes of the second token, rounded up. -/
def input1 (liquidity a b : ℤ) : ℤ := ceilDiv (liquidity * (b - a)) Q96

def output0 (liquidity a b : ℤ) : ℤ := liquidity * Q96 * (b - a) / b / a

def output1 (liquidity a b : ℤ) : ℤ := liquidity * (b - a) / Q96

def nextFromInput0 (sqrtP liquidity amount : ℤ) : ℤ :=
  let numerator := liquidity * Q96
  if amount = 0 then sqrtP
  else if amount * sqrtP < 2 ^ 256 ∧ numerator + amount * sqrtP < 2 ^ 256 then ceilDiv (numerator * sqrtP) (numerator + amount * sqrtP)
  else ceilDiv numerator (numerator / sqrtP + amount)

def nextFromInput1 (sqrtP liquidity amount : ℤ) : ℤ := sqrtP + amount * Q96 / liquidity

structure SpanStep where
  sqrtNext : ℤ
  amountIn : ℤ
  amountOut : ℤ
  feeAmount : ℤ
  deriving DecidableEq

/-- One span with the input `remaining`: to the target where the input without its fee pays for that. -/
def spanStep (sqrtP target liquidity remaining fee : ℤ) : SpanStep :=
  let lessFee := remaining * (feeUnits - fee) / feeUnits
  let whole := if target ≤ sqrtP then input0 liquidity target sqrtP else input1 liquidity sqrtP target
  let next := if whole ≤ lessFee then target else if target ≤ sqrtP then nextFromInput0 sqrtP liquidity lessFee else nextFromInput1 sqrtP liquidity lessFee
  let amountIn := if next = target then whole else if target ≤ sqrtP then input0 liquidity next sqrtP else input1 liquidity sqrtP next
  { sqrtNext := next
    amountIn := amountIn
    amountOut := if target ≤ sqrtP then output1 liquidity next sqrtP else output0 liquidity sqrtP next
    feeAmount := if next = target then ceilDiv (amountIn * fee) (feeUnits - fee) else remaining - amountIn }

variable {a d y sqrtP target liquidity amount remaining fee : ℤ}

theorem ceilDiv_le_iff (positive : 0 < d) : ceilDiv a d ≤ y ↔ a ≤ y * d := by
  unfold ceilDiv
  rw [← Int.lt_add_one_iff, Int.ediv_lt_iff_lt_mul positive, add_mul, one_mul]
  omega

theorem lt_ceilDiv_iff (positive : 0 < d) : y < ceilDiv a d ↔ y * d < a := by
  rw [← not_le, ceilDiv_le_iff positive, not_le]

theorem lt_input0_iff (lower : 0 < target) (upper : 0 < sqrtP) :
    amount < input0 liquidity target sqrtP ↔ amount * target * sqrtP < liquidity * Q96 * (sqrtP - target) := by
  unfold input0
  rw [lt_ceilDiv_iff lower, lt_ceilDiv_iff upper]

theorem lt_input1_iff : amount < input1 liquidity sqrtP target ↔ amount * Q96 < liquidity * (target - sqrtP) :=
  lt_ceilDiv_iff (by decide)

theorem nextFromInput0_between (lower : 0 < target) (below : target ≤ sqrtP) (given : 0 ≤ amount)
    (short : amount < input0 liquidity target sqrtP) :
    target < nextFromInput0 sqrtP liquidity amount ∧ nextFromInput0 sqrtP liquidity amount ≤ sqrtP := by
  have upper : 0 < sqrtP := lower.trans_le below
  rw [lt_input0_iff lower upper] at short
  have cost : 0 ≤ amount * target * sqrtP := by positivity
  have width : 0 < liquidity * Q96 * (sqrtP - target) := cost.trans_lt short
  have numerator : 0 < liquidity * Q96 := by
    by_contra none
    have product := mul_nonpos_of_nonpos_of_nonneg (not_lt.mp none) (sub_nonneg.mpr below)
    omega
  unfold nextFromInput0
  dsimp only
  generalize liquidity * Q96 = numer at *
  split
  · refine ⟨lt_of_le_of_ne below fun same => ?_, le_rfl⟩
    rw [same, sub_self, mul_zero] at width
    exact lt_irrefl _ width
  · rename_i some'
    have one : 1 ≤ amount := by omega
    split
    · have product : 0 ≤ amount * sqrtP := by positivity
      have positive : 0 < numer + amount * sqrtP := by linarith
      constructor
      · refine (lt_ceilDiv_iff positive).mpr ?_
        nlinarith
      · rw [ceilDiv_le_iff positive]
        nlinarith
    · have quotient : 0 ≤ numer / sqrtP := Int.ediv_nonneg numerator.le upper.le
      have positive : 0 < numer / sqrtP + amount := by linarith
      have floor : numer / sqrtP * sqrtP ≤ numer := Int.ediv_mul_le numer upper.ne'
      have next : numer < (numer / sqrtP + 1) * sqrtP := Int.lt_ediv_add_one_mul_self numer upper
      constructor
      · refine (lt_ceilDiv_iff positive).mpr ?_
        nlinarith
      · rw [ceilDiv_le_iff positive]
        nlinarith

theorem nextFromInput1_between (above : sqrtP ≤ target) (given : 0 ≤ amount) (short : amount < input1 liquidity sqrtP target) :
    sqrtP ≤ nextFromInput1 sqrtP liquidity amount ∧ nextFromInput1 sqrtP liquidity amount < target := by
  rw [lt_input1_iff] at short
  have cost : 0 ≤ amount * Q96 := mul_nonneg given (by decide)
  have positive : 0 < liquidity := by
    by_contra none
    have product := mul_nonpos_of_nonpos_of_nonneg (not_lt.mp none) (sub_nonneg.mpr above)
    omega
  have moved : 0 ≤ amount * Q96 / liquidity := Int.ediv_nonneg cost positive.le
  have bounded : amount * Q96 / liquidity < target - sqrtP := by
    rw [Int.ediv_lt_iff_lt_mul positive, mul_comm (target - sqrtP)]
    exact short
  unfold nextFromInput1
  omega

variable (least : 0 ≤ fee) (most : fee < feeUnits) (given : 0 ≤ remaining)

include most given in
theorem lessFee_nonneg : 0 ≤ remaining * (feeUnits - fee) / feeUnits :=
  Int.ediv_nonneg (mul_nonneg given (by omega)) (by decide)

include most given in
theorem spanStep_down (lower : 0 < target) (below : target ≤ sqrtP) :
    target ≤ (spanStep sqrtP target liquidity remaining fee).sqrtNext ∧ (spanStep sqrtP target liquidity remaining fee).sqrtNext ≤ sqrtP := by
  unfold spanStep
  dsimp only
  rw [if_pos below]
  split
  · exact ⟨le_rfl, below⟩
  · rename_i short
    obtain ⟨ahead, behind⟩ := nextFromInput0_between lower below (lessFee_nonneg most given) (not_le.mp short)
    exact ⟨ahead.le, behind⟩

include most given in
theorem spanStep_up (lower : 0 < sqrtP) (above : sqrtP ≤ target) :
    sqrtP ≤ (spanStep sqrtP target liquidity remaining fee).sqrtNext ∧ (spanStep sqrtP target liquidity remaining fee).sqrtNext ≤ target := by
  unfold spanStep
  dsimp only
  rcases eq_or_lt_of_le above with rfl | apart
  · have free : input0 liquidity sqrtP sqrtP ≤ 0 := by
      rw [← not_lt, lt_input0_iff lower lower]
      simp
    have pays := free.trans (lessFee_nonneg most given)
    rw [if_pos le_rfl, if_pos pays]
    exact ⟨le_rfl, le_rfl⟩
  · simp only [if_neg (not_le.mpr apart)]
    split
    · exact ⟨above, le_rfl⟩
    · rename_i short
      obtain ⟨behind, ahead⟩ := nextFromInput1_between above (lessFee_nonneg most given) (not_le.mp short)
      exact ⟨behind, ahead.le⟩

theorem spanStep_down_whole (below : target ≤ sqrtP) (pays : input0 liquidity target sqrtP ≤ remaining * (feeUnits - fee) / feeUnits) :
    spanStep sqrtP target liquidity remaining fee =
      ⟨target, input0 liquidity target sqrtP, output1 liquidity target sqrtP, ceilDiv (input0 liquidity target sqrtP * fee) (feeUnits - fee)⟩ := by
  unfold spanStep
  simp only [if_pos below, if_pos pays, if_true]

theorem spanStep_up_whole (above : sqrtP < target) (pays : input1 liquidity sqrtP target ≤ remaining * (feeUnits - fee) / feeUnits) :
    spanStep sqrtP target liquidity remaining fee =
      ⟨target, input1 liquidity sqrtP target, output0 liquidity sqrtP target, ceilDiv (input1 liquidity sqrtP target * fee) (feeUnits - fee)⟩ := by
  unfold spanStep
  simp only [if_neg (not_le.mpr above), if_pos pays, if_true]

include most given in
theorem spanStep_down_part (lower : 0 < target) (below : target ≤ sqrtP) (short : remaining * (feeUnits - fee) / feeUnits < input0 liquidity target sqrtP) :
    ∃ next, next = nextFromInput0 sqrtP liquidity (remaining * (feeUnits - fee) / feeUnits) ∧ target < next ∧ next ≤ sqrtP ∧
      spanStep sqrtP target liquidity remaining fee =
        ⟨next, input0 liquidity next sqrtP, output1 liquidity next sqrtP, remaining - input0 liquidity next sqrtP⟩ := by
  obtain ⟨ahead, behind⟩ := nextFromInput0_between lower below (lessFee_nonneg most given) short
  refine ⟨_, rfl, ahead, behind, ?_⟩
  unfold spanStep
  simp only [if_pos below, if_neg (not_le.mpr short), if_neg ahead.ne']

include most given in
theorem spanStep_up_part (above : sqrtP < target) (short : remaining * (feeUnits - fee) / feeUnits < input1 liquidity sqrtP target) :
    ∃ next, next = nextFromInput1 sqrtP liquidity (remaining * (feeUnits - fee) / feeUnits) ∧ sqrtP ≤ next ∧ next < target ∧
      spanStep sqrtP target liquidity remaining fee =
        ⟨next, input1 liquidity sqrtP next, output0 liquidity sqrtP next, remaining - input1 liquidity sqrtP next⟩ := by
  obtain ⟨behind, ahead⟩ := nextFromInput1_between above.le (lessFee_nonneg most given) short
  refine ⟨_, rfl, behind, ahead, ?_⟩
  unfold spanStep
  simp only [if_neg (not_le.mpr above), if_neg (not_le.mpr short), if_neg ahead.ne]

theorem withFee_le {whole : ℤ} (rest : 0 < feeUnits - fee) (covered : whole ≤ remaining * (feeUnits - fee) / feeUnits) :
    whole + ceilDiv (whole * fee) (feeUnits - fee) ≤ remaining := by
  have scaled : whole * feeUnits ≤ remaining * (feeUnits - fee) :=
    (Int.le_ediv_iff_mul_le (by decide)).mp covered
  have charged : ceilDiv (whole * fee) (feeUnits - fee) ≤ remaining - whole := by
    rw [ceilDiv_le_iff rest]
    linarith
  omega

include most given in
theorem spanStep_within (lower : 0 < target) :
    (spanStep sqrtP target liquidity remaining fee).amountIn + (spanStep sqrtP target liquidity remaining fee).feeAmount ≤ remaining := by
  have rest : 0 < feeUnits - fee := by omega
  rcases le_or_gt target sqrtP with below | above
  · by_cases pays : input0 liquidity target sqrtP ≤ remaining * (feeUnits - fee) / feeUnits
    · rw [spanStep_down_whole below pays]
      exact withFee_le rest pays
    · obtain ⟨next, _, _, _, span⟩ := spanStep_down_part most given lower below (not_le.mp pays)
      rw [span]
      dsimp only
      omega
  · by_cases pays : input1 liquidity sqrtP target ≤ remaining * (feeUnits - fee) / feeUnits
    · rw [spanStep_up_whole above pays]
      exact withFee_le rest pays
    · obtain ⟨next, _, _, _, span⟩ := spanStep_up_part most given above (not_le.mp pays)
      rw [span]
      dsimp only
      omega

end ConcentratedPool
