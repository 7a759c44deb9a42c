import LpTerminal.Emerging.ReplayWalk

/-!
One span as the replay computes it against the span of the pool's own swap, in all four results.
-/

namespace LpTerminal.Emerging.Replay

open ConcentratedPool (SpanStep spanStep ceilDiv input0 input1 output0 output1 nextFromInput0 nextFromInput1 feeUnits ceilDiv_le_iff lt_ceilDiv_iff)

variable {sqrtCurrent sqrtTarget liquidity remaining feePpm : ℤ}

def SwapStep.ofSpan (span : SpanStep) : SwapStep := ⟨span.sqrtNext, span.amountIn, span.amountOut, span.feeAmount⟩

def FeeMatches (remaining feePpm whole : ℤ) : Prop :=
  stepFee remaining feePpm = mulDivRoundingUp whole feePpm (FEE_DENOMINATOR - feePpm)

/-- Where the replay's span is the pool's: the input is all fee; or it pays for a span that takes some, with the fee of its
input; or, upwards, it ends inside the span at a price whose rounding loses less than a unit of it. -/
def StepExact (sqrtCurrent sqrtTarget liquidity remaining feePpm : ℤ) : Prop :=
  let input := lessFee remaining feePpm
  if sqrtTarget ≤ sqrtCurrent then
    sqrtTarget < sqrtCurrent ∧
      (input = 0 ∨
        (0 < amount0Delta sqrtTarget sqrtCurrent liquidity false ∧ amount0Delta sqrtTarget sqrtCurrent liquidity true ≤ input ∧
          FeeMatches remaining feePpm (amount0Delta sqrtTarget sqrtCurrent liquidity true)))
  else
    input = 0 ∨
      (input < amount1Delta sqrtCurrent sqrtTarget liquidity false ∧ input * Q96 % liquidity < Q96) ∨
      (amount1Delta sqrtCurrent sqrtTarget liquidity true ≤ input ∧
        (0 < amount1Delta sqrtCurrent sqrtTarget liquidity false ∨ input * Q96 / liquidity = sqrtTarget - sqrtCurrent) ∧
        FeeMatches remaining feePpm (amount1Delta sqrtCurrent sqrtTarget liquidity true))

theorem mulDivRoundingUp_eq {a b d : ℤ} (given : 0 ≤ a * b) (positive : 0 < d) : mulDivRoundingUp a b d = ceilDiv (a * b) d := by
  unfold mulDivRoundingUp ceilDiv
  exact Int.tdiv_eq_ediv_of_nonneg (by omega)

theorem divUp_eq {a d : ℤ} (given : 0 ≤ a) (positive : 0 < d) : divUp a d = ceilDiv a d := by
  unfold divUp ceilDiv
  exact Int.tdiv_eq_ediv_of_nonneg (by omega)

theorem ceilDiv_nonneg {a d : ℤ} (given : 0 ≤ a) (positive : 0 < d) : 0 ≤ ceilDiv a d := by
  unfold ceilDiv
  exact Int.ediv_nonneg (by omega) positive.le

theorem ceilDiv_zero {d : ℤ} (positive : 0 < d) : ceilDiv 0 d = 0 := by
  unfold ceilDiv
  exact Int.ediv_eq_zero_of_lt (by omega) (by omega)

variable {a b : ℤ}

theorem amount0Delta_up (low : 0 < a) (order : a ≤ b) (active : 0 < liquidity) :
    amount0Delta a b liquidity true = input0 liquidity a b := by
  have high : 0 < b := low.trans_le order
  have product : 0 ≤ liquidity * 2 ^ 96 * (b - a) := mul_nonneg (by positivity) (sub_nonneg.mpr order)
  unfold amount0Delta
  simp only [if_neg (not_lt.mpr order), if_true]
  split
  · rename_i none'
    obtain rfl : a = b := none'.resolve_left active.ne'
    show (0 : ℤ) = input0 liquidity a a
    unfold input0
    rw [sub_self, mul_zero]
    rw [ceilDiv_zero low, ceilDiv_zero low]
  · rw [mulDivRoundingUp_eq product high, divUp_eq (ceilDiv_nonneg product high) low]
    rfl

theorem amount0Delta_down (low : 0 < a) (order : a ≤ b) (active : 0 < liquidity) :
    amount0Delta a b liquidity false = output0 liquidity a b := by
  have high : 0 < b := low.trans_le order
  have product : 0 ≤ liquidity * 2 ^ 96 * (b - a) := mul_nonneg (by positivity) (sub_nonneg.mpr order)
  unfold amount0Delta
  simp only [if_neg (not_lt.mpr order), Bool.false_eq_true, if_false]
  split
  · rename_i none'
    obtain rfl : a = b := none'.resolve_left active.ne'
    unfold output0
    rw [sub_self, mul_zero, Int.zero_ediv, Int.zero_ediv]
  · rw [Int.tdiv_eq_ediv_of_nonneg product, Int.tdiv_eq_ediv_of_nonneg (Int.ediv_nonneg product high.le)]
    rfl

theorem amount1Delta_up (order : a ≤ b) (active : 0 < liquidity) : amount1Delta a b liquidity true = input1 liquidity a b := by
  unfold amount1Delta
  simp only [if_neg (not_lt.mpr order), if_true]
  exact mulDivRoundingUp_eq (mul_nonneg active.le (sub_nonneg.mpr order)) (by decide)

theorem amount1Delta_down (order : a ≤ b) (active : 0 < liquidity) : amount1Delta a b liquidity false = output1 liquidity a b := by
  unfold amount1Delta
  simp only [if_neg (not_lt.mpr order), Bool.false_eq_true, if_false]
  exact Int.tdiv_eq_ediv_of_nonneg (mul_nonneg active.le (sub_nonneg.mpr order))

theorem stepFee_eq (given : 0 ≤ remaining) (least : 0 ≤ feePpm) : stepFee remaining feePpm = ceilDiv (remaining * feePpm) feeUnits :=
  mulDivRoundingUp_eq (mul_nonneg given least) (by decide)

theorem lessFee_eq (given : 0 ≤ remaining) (least : 0 ≤ feePpm) : lessFee remaining feePpm = remaining * (feeUnits - feePpm) / feeUnits := by
  unfold lessFee
  rw [stepFee_eq given least, mul_sub]
  unfold ceilDiv feeUnits
  generalize remaining * feePpm = taken
  omega

theorem cappedFee_paid {amountIn feeAmount : ℤ} (charged : 0 ≤ feeAmount) (paid : amountIn + feeAmount ≤ remaining) :
    cappedFee remaining amountIn feeAmount = feeAmount := by
  unfold cappedFee
  dsimp only
  rw [if_neg (not_lt.mpr paid), if_neg (not_lt.mpr charged)]

section Down

variable (below : sqrtTarget ≤ sqrtCurrent)

include below in
theorem step_down_whole (some' : 0 < amount0Delta sqrtTarget sqrtCurrent liquidity false)
    (enough : amount0Delta sqrtTarget sqrtCurrent liquidity false ≤ lessFee remaining feePpm) :
    computeSwapStep sqrtCurrent sqrtTarget liquidity remaining feePpm =
      .ok ⟨sqrtTarget, amount0Delta sqrtTarget sqrtCurrent liquidity true, amount1Delta sqrtTarget sqrtCurrent liquidity false,
        cappedFee remaining (amount0Delta sqrtTarget sqrtCurrent liquidity true) (stepFee remaining feePpm)⟩ := by
  unfold lessFee at enough
  unfold computeSwapStep
  simp only [if_pos below, if_pos (And.intro enough some')]

include below in
theorem step_down_part (short : ¬ (amount0Delta sqrtTarget sqrtCurrent liquidity false ≤ lessFee remaining feePpm ∧
      0 < amount0Delta sqrtTarget sqrtCurrent liquidity false)) :
    computeSwapStep sqrtCurrent sqrtTarget liquidity remaining feePpm =
      (nextSqrtFromAmount0 sqrtCurrent liquidity (lessFee remaining feePpm) false).map fun next =>
        ⟨next, amount0Delta next sqrtCurrent liquidity true, amount1Delta next sqrtCurrent liquidity false,
          cappedFee remaining (amount0Delta next sqrtCurrent liquidity true) (stepFee remaining feePpm)⟩ := by
  unfold lessFee at short
  unfold computeSwapStep lessFee
  simp only [if_pos below, if_neg short]
  cases nextSqrtFromAmount0 sqrtCurrent liquidity (remaining - stepFee remaining feePpm) false <;> rfl

end Down

theorem nextSqrtFromAmount0_up {amount next : ℤ} (current : 0 < sqrtCurrent) (active : 0 < liquidity) (given : 0 ≤ amount)
    (moves : nextSqrtFromAmount0 sqrtCurrent liquidity amount false = .ok next) :
    sqrtCurrent ≤ next ∧ (next ≤ sqrtCurrent → amount = 0) := by
  have numerator : 0 < liquidity * 2 ^ 96 := by positivity
  unfold nextSqrtFromAmount0 at moves
  simp only [Bool.false_eq_true, if_false] at moves
  split at moves
  · cases moves
  · rename_i some'
    cases moves
    generalize liquidity * 2 ^ 96 = numer at *
    have positive : 0 < numer - amount * sqrtCurrent := by omega
    have product : 0 ≤ amount * sqrtCurrent := mul_nonneg given current.le
    rw [mulDivRoundingUp_eq (mul_nonneg numerator.le current.le) positive]
    constructor
    · apply not_lt.mp
      intro lower
      have upper := (ceilDiv_le_iff positive).mp (Int.le_sub_one_of_lt lower)
      nlinarith
    · intro upper
      have cost := (ceilDiv_le_iff positive).mp upper
      have none' : amount * sqrtCurrent ≤ 0 := by nlinarith
      nlinarith

theorem nextSqrtFromAmount0_none (current : 0 < sqrtCurrent) (active : 0 < liquidity) (add : Bool) :
    nextSqrtFromAmount0 sqrtCurrent liquidity 0 add = .ok sqrtCurrent := by
  have numerator : 0 < liquidity * 2 ^ 96 := by positivity
  unfold nextSqrtFromAmount0
  simp only [zero_mul, add_zero, sub_zero, ite_self]
  rw [if_neg (not_le.mpr numerator), mulDivRoundingUp_eq (mul_nonneg numerator.le current.le) numerator]
  unfold ceilDiv
  have inside : liquidity * 2 ^ 96 * sqrtCurrent + liquidity * 2 ^ 96 - 1 = (liquidity * 2 ^ 96 - 1) + liquidity * 2 ^ 96 * sqrtCurrent := by ring
  rw [inside, Int.add_mul_ediv_left _ _ numerator.ne', Int.ediv_eq_zero_of_lt (by omega) (by omega), zero_add]

theorem output0_le_input0 (low : 0 < a) (order : a ≤ b) : output0 liquidity a b ≤ input0 liquidity a b := by
  have high : 0 < b := low.trans_le order
  unfold output0 input0 ceilDiv
  apply Int.ediv_le_ediv low
  have floors : liquidity * ConcentratedPool.Q96 * (b - a) / b ≤ (liquidity * ConcentratedPool.Q96 * (b - a) + b - 1) / b :=
    Int.ediv_le_ediv high (by omega)
  omega

theorem input0_self {a : ℤ} (low : 0 < a) : input0 liquidity a a = 0 := by
  unfold input0
  rw [sub_self, mul_zero, ceilDiv_zero low, ceilDiv_zero low]

theorem output0_pos_apart (order : a ≤ b) (some' : 0 < output0 liquidity a b) : a < b := by
  refine lt_of_le_of_ne order fun same => ?_
  subst same
  unfold output0 at some'
  rw [sub_self, mul_zero, Int.zero_ediv, Int.zero_ediv] at some'
  exact lt_irrefl _ some'

theorem input0_pos (low : 0 < a) (apart : a < b) (active : 0 < liquidity) : 0 < input0 liquidity a b := by
  rw [ConcentratedPool.lt_input0_iff low (low.trans apart), zero_mul, zero_mul]
  exact mul_pos (mul_pos active (by decide)) (sub_pos.mpr apart)

section Exact

variable (current : 0 < sqrtCurrent) (aimed : 0 < sqrtTarget) (active : 0 < liquidity) (given : 0 < remaining) (least : 0 ≤ feePpm)
  (most : feePpm < feeUnits)

include given least most in
theorem lessFee_given : 0 ≤ lessFee remaining feePpm := by
  rw [lessFee_eq given.le least]
  exact ConcentratedPool.lessFee_nonneg most given.le

include current aimed active given least most in
theorem exact_down_whole (below : sqrtTarget ≤ sqrtCurrent) (pays : input0 liquidity sqrtTarget sqrtCurrent ≤ lessFee remaining feePpm) :
    computeSwapStep sqrtCurrent sqrtTarget liquidity remaining feePpm = .ok (.ofSpan (spanStep sqrtCurrent sqrtTarget liquidity remaining feePpm)) ↔
      0 < output0 liquidity sqrtTarget sqrtCurrent ∧ FeeMatches remaining feePpm (input0 liquidity sqrtTarget sqrtCurrent) := by
  have charged := stepFee_nonneg given.le least
  have split : lessFee remaining feePpm = remaining - stepFee remaining feePpm := rfl
  rw [ConcentratedPool.spanStep_down_whole below (by rwa [← lessFee_eq given.le least])]
  have whole : 0 ≤ input0 liquidity sqrtTarget sqrtCurrent := by
    rcases below.lt_or_eq with apart | same
    · exact (input0_pos aimed apart active).le
    · rw [same, input0_self current]
  have fees : mulDivRoundingUp (input0 liquidity sqrtTarget sqrtCurrent) feePpm (FEE_DENOMINATOR - feePpm)
      = ceilDiv (input0 liquidity sqrtTarget sqrtCurrent * feePpm) (feeUnits - feePpm) :=
    mulDivRoundingUp_eq (mul_nonneg whole least) (sub_pos.mpr most)
  unfold FeeMatches
  rw [fees]
  have outputs := amount0Delta_down aimed below active
  have inputs := amount0Delta_up aimed below active
  by_cases some' : 0 < output0 liquidity sqrtTarget sqrtCurrent
  · rw [step_down_whole below (outputs ▸ some') (outputs ▸ (output0_le_input0 aimed below).trans pays), inputs, amount1Delta_down below active,
      cappedFee_paid charged (by omega)]
    simp [SwapStep.ofSpan, some']
  · rw [step_down_part below (by rw [outputs]; exact fun reaches => some' reaches.2)]
    constructor
    · intro agrees
      cases moves : nextSqrtFromAmount0 sqrtCurrent liquidity (lessFee remaining feePpm) false with
      | error other =>
        rw [moves] at agrees
        cases agrees
      | ok next =>
        -- the price does not go down, so the span has no width, and its input is all fee
        obtain ⟨up, still⟩ := nextSqrtFromAmount0_up current active (lessFee_given given least most) moves
        rw [moves] at agrees
        obtain ⟨rfl, _, _, paid⟩ := SwapStep.mk.inj (Except.ok.inj agrees)
        obtain rfl : next = sqrtCurrent := below.antisymm up
        have all := still le_rfl
        rw [amount0Delta_up current le_rfl active, input0_self current, cappedFee_paid charged (by omega), zero_mul] at paid
        change stepFee remaining feePpm = ceilDiv 0 (feeUnits - feePpm) at paid
        rw [ceilDiv_zero (sub_pos.mpr most)] at paid
        omega
    · rintro ⟨positive, _⟩
      exact absurd positive some'

include current aimed active given least most in
theorem exact_down_part (below : sqrtTarget ≤ sqrtCurrent) (short : lessFee remaining feePpm < input0 liquidity sqrtTarget sqrtCurrent) :
    computeSwapStep sqrtCurrent sqrtTarget liquidity remaining feePpm = .ok (.ofSpan (spanStep sqrtCurrent sqrtTarget liquidity remaining feePpm)) ↔
      lessFee remaining feePpm = 0 := by
  have charged := stepFee_nonneg given.le least
  have split : lessFee remaining feePpm = remaining - stepFee remaining feePpm := rfl
  have less := lessFee_eq given.le least
  obtain ⟨next, priced, beyond, within, span⟩ := ConcentratedPool.spanStep_down_part most given.le aimed below (less ▸ short)
  rw [← less] at priced
  rw [span]
  have outputs := amount0Delta_down aimed below active
  by_cases reaches : output0 liquidity sqrtTarget sqrtCurrent ≤ lessFee remaining feePpm ∧ 0 < output0 liquidity sqrtTarget sqrtCurrent
  · rw [step_down_whole below (outputs ▸ reaches.2) (outputs ▸ reaches.1)]
    constructor
    · intro agrees
      exact absurd (SwapStep.mk.inj (Except.ok.inj agrees)).1 beyond.ne
    · intro none'
      omega
  · rw [step_down_part below (by rwa [outputs])]
    constructor
    · intro agrees
      cases moves : nextSqrtFromAmount0 sqrtCurrent liquidity (lessFee remaining feePpm) false with
      | error other =>
        rw [moves] at agrees
        cases agrees
      | ok price =>
        obtain ⟨_, still⟩ := nextSqrtFromAmount0_up current active (lessFee_given given least most) moves
        rw [moves] at agrees
        obtain ⟨rfl, _⟩ := SwapStep.mk.inj (Except.ok.inj agrees)
        exact still within
    · intro none'
      have stays : next = sqrtCurrent := by
        rw [priced, none']
        rfl
      rw [none', nextSqrtFromAmount0_none current active, stays]
      show Except.ok (SwapStep.mk sqrtCurrent _ _ _) = _
      rw [amount0Delta_up current le_rfl active, amount1Delta_down le_rfl active, input0_self current, cappedFee_paid charged (by omega)]
      have all : stepFee remaining feePpm = remaining - 0 := by omega
      rw [all]
      rfl

theorem nextSqrtFromAmount1_eq {amount : ℤ} (spent : 0 ≤ amount) :
    nextSqrtFromAmount1 sqrtCurrent liquidity amount true = sqrtCurrent + amount * Q96 / liquidity := by
  unfold nextSqrtFromAmount1
  rw [if_pos rfl, Int.tdiv_eq_ediv_of_nonneg (mul_nonneg spent (by decide))]
  rfl

theorem output1_le_input1 : output1 liquidity a b ≤ input1 liquidity a b := by
  unfold output1 input1 ceilDiv ConcentratedPool.Q96
  omega

theorem input1_le_output1 : input1 liquidity a b ≤ output1 liquidity a b + 1 := by
  unfold output1 input1 ceilDiv ConcentratedPool.Q96
  omega

include active in
theorem input1_spent_iff {amount : ℤ} :
    input1 liquidity sqrtCurrent (sqrtCurrent + amount * Q96 / liquidity) = amount ↔ amount * Q96 % liquidity < Q96 := by
  have width : sqrtCurrent + amount * Q96 / liquidity - sqrtCurrent = amount * Q96 / liquidity := by ring
  have whole := Int.mul_ediv_add_emod (amount * Q96) liquidity
  have least := Int.emod_nonneg (amount * Q96) active.ne'
  unfold input1
  rw [width]
  constructor
  · intro spent
    have under := (lt_ceilDiv_iff (by decide)).mp (lt_of_lt_of_eq (sub_one_lt amount) spent.symm)
    change (amount - 1) * Q96 < _ at under
    linarith
  · intro loses
    apply le_antisymm
    · apply (ceilDiv_le_iff (by decide)).mpr
      show _ ≤ amount * Q96
      linarith
    · apply Int.le_of_sub_one_lt
      apply (lt_ceilDiv_iff (by decide)).mpr
      show (amount - 1) * Q96 < _
      linarith

theorem step_up_whole (above : sqrtCurrent < sqrtTarget) (some' : 0 < amount1Delta sqrtCurrent sqrtTarget liquidity false)
    (enough : amount1Delta sqrtCurrent sqrtTarget liquidity false ≤ lessFee remaining feePpm) :
    computeSwapStep sqrtCurrent sqrtTarget liquidity remaining feePpm =
      .ok ⟨sqrtTarget, amount1Delta sqrtCurrent sqrtTarget liquidity true, amount0Delta sqrtCurrent sqrtTarget liquidity false,
        cappedFee remaining (amount1Delta sqrtCurrent sqrtTarget liquidity true) (stepFee remaining feePpm)⟩ := by
  unfold lessFee at enough
  unfold computeSwapStep
  simp only [if_neg (not_le.mpr above), if_pos (And.intro enough some')]

include current active given least most in
theorem step_up_part (above : sqrtCurrent < sqrtTarget)
    (short : ¬ (output1 liquidity sqrtCurrent sqrtTarget ≤ lessFee remaining feePpm ∧ 0 < output1 liquidity sqrtCurrent sqrtTarget)) :
    ∃ next, next = sqrtCurrent + lessFee remaining feePpm * Q96 / liquidity ∧ sqrtCurrent ≤ next ∧
      computeSwapStep sqrtCurrent sqrtTarget liquidity remaining feePpm =
        .ok ⟨next, input1 liquidity sqrtCurrent next, output0 liquidity sqrtCurrent next,
          cappedFee remaining (input1 liquidity sqrtCurrent next) (stepFee remaining feePpm)⟩ := by
  have input := lessFee_given given least most
  have moved : 0 ≤ lessFee remaining feePpm * Q96 / liquidity := Int.ediv_nonneg (mul_nonneg input (by decide)) active.le
  refine ⟨_, rfl, by omega, ?_⟩
  have upwards : sqrtCurrent ≤ sqrtCurrent + lessFee remaining feePpm * Q96 / liquidity := by omega
  rw [← amount1Delta_down above.le active] at short
  rw [← amount1Delta_up upwards active, ← amount0Delta_down current upwards active, ← nextSqrtFromAmount1_eq input]
  unfold lessFee at short ⊢
  unfold computeSwapStep
  simp only [if_neg (not_le.mpr above), if_neg short]

include current active given least most in
theorem exact_up_whole (above : sqrtCurrent < sqrtTarget) (pays : input1 liquidity sqrtCurrent sqrtTarget ≤ lessFee remaining feePpm) :
    computeSwapStep sqrtCurrent sqrtTarget liquidity remaining feePpm = .ok (.ofSpan (spanStep sqrtCurrent sqrtTarget liquidity remaining feePpm)) ↔
      (0 < output1 liquidity sqrtCurrent sqrtTarget ∨ lessFee remaining feePpm * Q96 / liquidity = sqrtTarget - sqrtCurrent) ∧
        FeeMatches remaining feePpm (input1 liquidity sqrtCurrent sqrtTarget) := by
  have charged := stepFee_nonneg given.le least
  have split : lessFee remaining feePpm = remaining - stepFee remaining feePpm := rfl
  rw [ConcentratedPool.spanStep_up_whole above (by rwa [← lessFee_eq given.le least])]
  have whole : 0 ≤ input1 liquidity sqrtCurrent sqrtTarget := ceilDiv_nonneg (mul_nonneg active.le (sub_pos.mpr above).le) (by decide)
  have fees : mulDivRoundingUp (input1 liquidity sqrtCurrent sqrtTarget) feePpm (FEE_DENOMINATOR - feePpm)
      = ceilDiv (input1 liquidity sqrtCurrent sqrtTarget * feePpm) (feeUnits - feePpm) :=
    mulDivRoundingUp_eq (mul_nonneg whole least) (sub_pos.mpr most)
  unfold FeeMatches
  rw [fees]
  have outputs := amount1Delta_down above.le active
  have inputs := amount1Delta_up above.le active
  by_cases some' : 0 < output1 liquidity sqrtCurrent sqrtTarget
  · rw [step_up_whole above (outputs ▸ some') (outputs ▸ output1_le_input1.trans pays), inputs, amount0Delta_down current above.le active,
      cappedFee_paid charged (by omega)]
    simp [SwapStep.ofSpan, some']
  · obtain ⟨next, priced, _, steps⟩ := step_up_part current active given least most above (fun reaches => some' reaches.2)
    rw [steps]
    constructor
    · intro agrees
      obtain ⟨rfl, _, _, paid⟩ := SwapStep.mk.inj (Except.ok.inj agrees)
      rw [cappedFee_paid charged (by omega)] at paid
      exact ⟨Or.inr (by omega), paid⟩
    · rintro ⟨positive | arrives, paid⟩
      · exact absurd positive some'
      · obtain rfl : next = sqrtTarget := by omega
        rw [cappedFee_paid charged (by omega), paid]
        rfl

include current active given least most in
theorem exact_up_part (above : sqrtCurrent < sqrtTarget) (short : lessFee remaining feePpm < input1 liquidity sqrtCurrent sqrtTarget) :
    computeSwapStep sqrtCurrent sqrtTarget liquidity remaining feePpm = .ok (.ofSpan (spanStep sqrtCurrent sqrtTarget liquidity remaining feePpm)) ↔
      lessFee remaining feePpm = 0 ∨
        (lessFee remaining feePpm < output1 liquidity sqrtCurrent sqrtTarget ∧ lessFee remaining feePpm * Q96 % liquidity < Q96) := by
  have charged := stepFee_nonneg given.le least
  have input := lessFee_given given least most
  have split : lessFee remaining feePpm = remaining - stepFee remaining feePpm := rfl
  have less := lessFee_eq given.le least
  obtain ⟨next, priced, _, beyond, span⟩ := ConcentratedPool.spanStep_up_part most given.le above (less ▸ short)
  rw [← less] at priced
  rw [span]
  have outputs := amount1Delta_down above.le active
  by_cases reaches : output1 liquidity sqrtCurrent sqrtTarget ≤ lessFee remaining feePpm ∧ 0 < output1 liquidity sqrtCurrent sqrtTarget
  · rw [step_up_whole above (outputs ▸ reaches.2) (outputs ▸ reaches.1)]
    constructor
    · intro agrees
      exact absurd (SwapStep.mk.inj (Except.ok.inj agrees)).1 beyond.ne'
    · rintro (none' | ⟨less', _⟩)
      · omega
      · omega
  · obtain ⟨price, same, _, steps⟩ := step_up_part current active given least most above reaches
    obtain rfl : next = price := priced.trans same.symm
    -- the price is the same one, and so is the fee where the price takes all the input
    have takes : input1 liquidity sqrtCurrent next ≤ lessFee remaining feePpm := by
      have cost := Int.ediv_mul_le (lessFee remaining feePpm * Q96) active.ne'
      have width : next - sqrtCurrent = lessFee remaining feePpm * Q96 / liquidity := by omega
      apply (ceilDiv_le_iff (by decide)).mpr
      rw [width, mul_comm]
      exact cost
    have agrees_iff : SwapStep.mk next (input1 liquidity sqrtCurrent next) (output0 liquidity sqrtCurrent next) (stepFee remaining feePpm) =
        .ofSpan ⟨next, input1 liquidity sqrtCurrent next, output0 liquidity sqrtCurrent next, remaining - input1 liquidity sqrtCurrent next⟩ ↔
          input1 liquidity sqrtCurrent next = lessFee remaining feePpm := by
      simp only [SwapStep.ofSpan, SwapStep.mk.injEq, true_and]
      omega
    rw [steps, cappedFee_paid charged (by omega), Except.ok.injEq, agrees_iff, same, input1_spent_iff active]
    constructor
    · intro loses
      rcases input.lt_or_eq with some' | none'
      · refine Or.inr ⟨?_, loses⟩
        have near := @input1_le_output1 liquidity sqrtCurrent sqrtTarget
        omega
      · exact Or.inl none'.symm
    · rintro (none' | ⟨_, loses⟩)
      · rw [none', zero_mul, Int.zero_emod]
        decide
      · exact loses

include current aimed active given least most in
/-- A span of the replay is the pool's own, in all four results, exactly where `StepExact` says so. -/
theorem computeSwapStep_exact_iff :
    computeSwapStep sqrtCurrent sqrtTarget liquidity remaining feePpm = .ok (.ofSpan (spanStep sqrtCurrent sqrtTarget liquidity remaining feePpm)) ↔
      StepExact sqrtCurrent sqrtTarget liquidity remaining feePpm := by
  have input := lessFee_given given least most
  unfold StepExact
  dsimp only
  rcases le_or_gt sqrtTarget sqrtCurrent with below | above
  · rw [if_pos below, amount0Delta_up aimed below active, amount0Delta_down aimed below active]
    rcases le_or_gt (input0 liquidity sqrtTarget sqrtCurrent) (lessFee remaining feePpm) with pays | short
    · rw [exact_down_whole current aimed active given least most below pays]
      constructor
      · rintro ⟨positive, fees⟩
        exact ⟨output0_pos_apart below positive, Or.inr ⟨positive, pays, fees⟩⟩
      · rintro ⟨apart, none' | ⟨positive, _, fees⟩⟩
        · have cost := input0_pos aimed apart active
          omega
        · exact ⟨positive, fees⟩
    · rw [exact_down_part current aimed active given least most below short]
      constructor
      · intro none'
        refine ⟨lt_of_le_of_ne below fun same => ?_, Or.inl none'⟩
        rw [same, input0_self current] at short
        omega
      · rintro ⟨_, none' | ⟨_, pays, _⟩⟩
        · exact none'
        · exact absurd pays (not_le.mpr short)
  · rw [if_neg (not_le.mpr above), amount1Delta_up above.le active, amount1Delta_down above.le active]
    rcases le_or_gt (input1 liquidity sqrtCurrent sqrtTarget) (lessFee remaining feePpm) with pays | short
    · rw [exact_up_whole current active given least most above pays]
      have near := @output1_le_input1 liquidity sqrtCurrent sqrtTarget
      constructor
      · rintro ⟨reaches, fees⟩
        exact Or.inr (Or.inr ⟨pays, reaches, fees⟩)
      · rintro (none' | ⟨less, _⟩ | ⟨_, reaches, fees⟩)
        · have cost : 0 < input1 liquidity sqrtCurrent sqrtTarget := by
            rw [ConcentratedPool.lt_input1_iff, zero_mul]
            exact mul_pos active (sub_pos.mpr above)
          omega
        · omega
        · exact ⟨reaches, fees⟩
    · rw [exact_up_part current active given least most above short]
      constructor
      · rintro (none' | ends)
        · exact Or.inl none'
        · exact Or.inr (Or.inl ends)
      · rintro (none' | ends | ⟨pays, _⟩)
        · exact Or.inl none'
        · exact Or.inr ends
        · exact absurd pays (not_le.mpr short)

end Exact

/-- From price one towards tick 60, an input that ends before it. -/
theorem computeSwapStep_exact_iff_upwards :
    computeSwapStep (2 ^ 96) 79466191966197645195421774833 (10 ^ 18) 1000 3000 =
      .ok (.ofSpan (spanStep (2 ^ 96) 79466191966197645195421774833 (10 ^ 18) 1000 3000)) := by
  apply (computeSwapStep_exact_iff (by decide) (by decide) (by decide) (by decide) (by decide) (by decide)).mpr
  exact Or.inr (Or.inl ⟨by decide, by decide⟩)

/-- From price one towards tick -60: an input of the first token that ends before it moves the price up. -/
theorem computeSwapStep_moves_up :
    computeSwapStep (2 ^ 96) 78990846045029531151608375686 (10 ^ 18) 1000 3000 = .ok ⟨79228162514264416584021977058, 998, 997, 2⟩ ∧
      spanStep (2 ^ 96) 78990846045029531151608375686 (10 ^ 18) 1000 3000 = ⟨79228162514264258603065923615, 997, 996, 3⟩ ∧
      computeSwapStep (2 ^ 96) 78990846045029531151608375686 (10 ^ 18) 1000 3000 ≠
        .ok (.ofSpan (spanStep (2 ^ 96) 78990846045029531151608375686 (10 ^ 18) 1000 3000)) := by
  decide

end LpTerminal.Emerging.Replay
