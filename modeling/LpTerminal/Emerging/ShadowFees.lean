import LpTerminal.Emerging.ShadowReplay
import LpTerminal.Lib.Fallible

/-!
What the driver's ledger says the shadow position earned, against its own share of the spans that the swaps walked.
-/

namespace LpTerminal.Emerging.Replay

variable {feePpm target sqrtCurrent liquidity remaining sqrtPriceX96 eventTick : ℤ} {zeroForOne : Bool}

theorem step_fee {step : SwapStep} (computed : computeSwapStep sqrtCurrent target liquidity remaining feePpm = .ok step) :
    step.feeAmount = cappedFee remaining step.amountIn (stepFee remaining feePpm) := by
  unfold computeSwapStep at computed
  dsimp only at computed
  split at computed
  · split at computed
    · cases computed
      rfl
    · split at computed
      · cases computed
      · cases computed
        rfl
  · split at computed
    · cases computed
      rfl
    · cases computed
      rfl

theorem cappedFee_nonneg {amountIn feeAmount : ℤ} : 0 ≤ cappedFee remaining amountIn feeAmount := by
  unfold cappedFee
  dsimp only
  split <;> omega

theorem cappedFee_zero_iff {amountIn feeAmount : ℤ} (charged : 0 < feeAmount) : cappedFee remaining amountIn feeAmount = 0 ↔ remaining ≤ amountIn := by
  unfold cappedFee
  dsimp only
  split <;> split <;> omega

theorem stepFee_free : stepFee remaining 0 = 0 := by
  unfold stepFee mulDivRoundingUp
  rw [mul_zero]
  rfl

theorem stepFee_pos (given : 0 < remaining) (charges : 0 < feePpm) : 0 < stepFee remaining feePpm := by
  rw [stepFee_eq given.le charges.le, ConcentratedPool.lt_ceilDiv_iff (by decide), zero_mul]
  exact mul_pos given charges

theorem tdiv_nonpos {a b : ℤ} (top : a ≤ 0) (bottom : 0 ≤ b) : a.tdiv b ≤ 0 := by
  have mirrored := Int.tdiv_nonneg (neg_nonneg.mpr top) bottom
  rw [Int.neg_tdiv] at mirrored
  exact neg_nonneg.mp mirrored

theorem negative_short {step : SwapStep} (least : 0 ≤ feePpm) (most : feePpm < ConcentratedPool.feeUnits) (given : 0 < remaining)
    (negative : liquidity < 0) (priced : 0 ≤ target)
    (computed : computeSwapStep sqrtCurrent target liquidity remaining feePpm = .ok step) : step.sqrtNext ≠ target := by
  have input := lessFee_given given least most
  unfold lessFee at input
  unfold computeSwapStep at computed
  dsimp only at computed
  split at computed
  · rename_i below
    have order : ¬ sqrtCurrent < target := not_lt.mpr below
    split at computed
    · rename_i reaches
      exfalso
      have some' := reaches.2
      unfold amount0Delta at some'
      simp only [if_neg order, Bool.false_eq_true, if_false] at some'
      split at some'
      · exact lt_irrefl _ some'
      · have high : 0 ≤ sqrtCurrent := priced.trans below
        have product : liquidity * 2 ^ 96 * (sqrtCurrent - target) ≤ 0 :=
          mul_nonpos_of_nonpos_of_nonneg (by omega) (sub_nonneg.mpr below)
        have first := tdiv_nonpos product high
        have second := tdiv_nonpos first priced
        omega
    · unfold nextSqrtFromAmount0 at computed
      simp only [Bool.false_eq_true, if_false] at computed
      have product : 0 ≤ (remaining - stepFee remaining feePpm) * sqrtCurrent := mul_nonneg input (priced.trans below)
      rw [if_pos (by omega)] at computed
      cases computed
  · rename_i above
    split at computed
    · rename_i reaches
      exfalso
      have some' := reaches.2
      unfold amount1Delta at some'
      simp only [if_neg (show ¬ target < sqrtCurrent by omega), Bool.false_eq_true, if_false] at some'
      have product : liquidity * (target - sqrtCurrent) ≤ 0 := mul_nonpos_of_nonpos_of_nonneg negative.le (by omega)
      have none' := tdiv_nonpos product (show 0 ≤ Q96 by decide)
      omega
    · cases computed
      show nextSqrtFromAmount1 sqrtCurrent liquidity _ true ≠ target
      unfold nextSqrtFromAmount1
      have moved : ((remaining - stepFee remaining feePpm) * 2 ^ 96).tdiv liquidity ≤ 0 :=
        Int.tdiv_nonpos_of_nonneg_of_nonpos (by omega) negative.le
      simp only [if_true]
      omega

variable {w w' : Walk} {rounds : ℕ}

theorem creditPosition_same {p q : VirtualPosition} {sqrtFrom sqrtTo spanLiquidity feeAmount : ℤ}
    (credited : creditPosition p sqrtFrom sqrtTo spanLiquidity feeAmount = .ok q) : SameShadow p q := by
  unfold creditPosition at credited
  split at credited
  · cases credited
    rfl
  · obtain ⟨sqrtA, _, credited⟩ := Fallible.bind_ok credited
    obtain ⟨sqrtB, _, credited⟩ := Fallible.bind_ok credited
    split at credited
    · cases credited
      rfl
    · split at credited <;> cases credited <;> rfl

structure Spanned (feePpm target : ℤ) (zeroForOne : Bool) (w w' : Walk) (step : SwapStep) : Prop where
  computed : computeSwapStep w.state.sqrtP target w.state.liquidity w.remaining feePpm = .ok step
  shadow : SameShadow w.state.position w'.state.position
  liquidity : w'.state.liquidity = w.state.liquidity
  reconstructed : w'.reconstructedLiquidity = w.reconstructedLiquidity
  remaining : w'.remaining = w.remaining
  fee0 : w'.fee0 = w.fee0 + if zeroForOne then step.feeAmount else 0
  fee1 : w'.fee1 = w.fee1 + if zeroForOne then 0 else step.feeAmount

theorem walkSpan_spanned {step : SwapStep} (spanned : walkSpan feePpm zeroForOne target w = .ok (w', step)) :
    Spanned feePpm target zeroForOne w w' step := by
  unfold walkSpan at spanned
  obtain ⟨taken, computed, spanned⟩ := Fallible.bind_ok spanned
  obtain ⟨position, credited, spanned⟩ := Fallible.bind_ok spanned
  cases spanned
  exact ⟨computed, creditPosition_same credited, rfl, rfl, rfl, rfl, rfl⟩

def spanOf (w : Walk) (zeroForOne : Bool) (step : SwapStep) : Span := ⟨w.state.sqrtP, step.sqrtNext, w.state.liquidity, step.feeAmount, zeroForOne⟩

def afterSpan (zeroForOne : Bool) (targetTick sqrtTarget : ℤ) (walked : Walk) (step : SwapStep) : Walk :=
  let left := { walked with remaining := walked.remaining - (step.amountIn + step.feeAmount) }
  if step.sqrtNext = sqrtTarget then crossTick zeroForOne targetTick left else left

def spanTarget (sqrtPriceX96 : ℤ) (zeroForOne : Bool) (s : ReplayState) : Replayed ℤ :=
  match nextInitializedTick s.ticks s.tick zeroForOne with
  | none => .ok sqrtPriceX96
  | some targetTick => getSqrtRatioAtTick targetTick

/-- One round of a walk: none, the last span, or a span and the rounds after it. -/
inductive Round (feePpm sqrtPriceX96 eventTick : ℤ) (zeroForOne : Bool) (rounds : ℕ) (w w' : Walk) : List Span → Prop
  | rests (over' : ¬ (0 < w.remaining ∧ w.state.liquidity ≠ 0)) (same : w' = w) : Round feePpm sqrtPriceX96 eventTick zeroForOne rounds w w' []
  | last {walked : Walk} {step : SwapStep} (given : 0 < w.remaining) (active : w.state.liquidity ≠ 0)
      (aims : spanTarget sqrtPriceX96 zeroForOne w.state = .ok sqrtPriceX96) (spanned : Spanned feePpm sqrtPriceX96 zeroForOne w walked step)
      (ends : w' = { walked with state := { walked.state with tick := eventTick }, remaining := 0 }) :
      Round feePpm sqrtPriceX96 eventTick zeroForOne rounds w w' [spanOf w zeroForOne step]
  | spans {walked : Walk} {step : SwapStep} {targetTick sqrtTarget : ℤ} (given : 0 < w.remaining) (active : w.state.liquidity ≠ 0)
      (priced : getSqrtRatioAtTick targetTick = .ok sqrtTarget) (aims : spanTarget sqrtPriceX96 zeroForOne w.state = .ok sqrtTarget)
      (spanned : Spanned feePpm sqrtTarget zeroForOne w walked step) (left : 0 ≤ w.remaining - (step.amountIn + step.feeAmount))
      (later : walk feePpm sqrtPriceX96 eventTick zeroForOne rounds (afterSpan zeroForOne targetTick sqrtTarget walked step) = .ok w') :
      Round feePpm sqrtPriceX96 eventTick zeroForOne rounds w w'
        (spanOf w zeroForOne step :: walkSpans feePpm sqrtPriceX96 zeroForOne rounds (afterSpan zeroForOne targetTick sqrtTarget walked step))

theorem walk_round (walks : walk feePpm sqrtPriceX96 eventTick zeroForOne (rounds + 1) w = .ok w') :
    ∃ spans, walkSpans feePpm sqrtPriceX96 zeroForOne (rounds + 1) w = spans ∧ Round feePpm sqrtPriceX96 eventTick zeroForOne rounds w w' spans := by
  refine ⟨_, rfl, ?_⟩
  unfold walk at walks
  unfold walkSpans
  by_cases given : 0 < w.remaining
  · rw [if_pos given] at walks
    by_cases empty : w.state.liquidity = 0
    · rw [if_pos empty] at walks
      rw [if_neg (fun some' => some'.2 empty)]
      cases walks
      exact .rests (fun some' => some'.2 empty) rfl
    · rw [if_neg empty] at walks
      rw [if_pos ⟨given, empty⟩]
      cases search : nextInitializedTick w.state.ticks w.state.tick zeroForOne with
      | none =>
        rw [search] at walks
        obtain ⟨⟨walked, step⟩, computed, ends⟩ := Fallible.bind_ok walks
        cases ends
        dsimp only
        rw [computed]
        have aims : spanTarget sqrtPriceX96 zeroForOne w.state = .ok sqrtPriceX96 := by
          unfold spanTarget
          rw [search]
        exact .last given empty aims (walkSpan_spanned computed) rfl
      | some targetTick =>
        rw [search] at walks
        obtain ⟨sqrtTarget, priced, walks⟩ := Fallible.bind_ok walks
        obtain ⟨⟨walked, step⟩, computed, walks⟩ := Fallible.bind_ok walks
        have spanned := walkSpan_spanned computed
        have aims : spanTarget sqrtPriceX96 zeroForOne w.state = .ok sqrtTarget := by
          unfold spanTarget
          rw [search]
          exact priced
        dsimp only at walks ⊢
        rw [priced]
        dsimp only
        rw [computed]
        split at walks
        · cases walks
        · rename_i left
          rw [spanned.remaining] at left
          exact .spans given empty priced aims spanned (not_lt.mp left) walks
  · rw [if_neg given] at walks
    rw [if_neg (fun some' => given some'.1)]
    cases walks
    exact .rests (fun some' => given some'.1) rfl

theorem walk_out (walks : walk feePpm sqrtPriceX96 eventTick zeroForOne 0 w = .ok w') : w' = w := by
  unfold walk at walks
  split at walks
  · cases walks
  · cases walks
    rfl

@[simp] theorem feesOf_nil {fee : Span → ℤ} {direction : Bool} : feesOf fee direction [] = 0 := rfl

@[simp] theorem feesOf_cons {fee : Span → ℤ} {direction : Bool} {span : Span} {rest : List Span} :
    feesOf fee direction (span :: rest) = (if span.zeroForOne = direction then fee span else 0) + feesOf fee direction rest := by
  unfold feesOf
  by_cases same : span.zeroForOne = direction <;> simp [same]

theorem feesOf_append {fee : Span → ℤ} {direction : Bool} {first second : List Span} :
    feesOf fee direction (first ++ second) = feesOf fee direction first + feesOf fee direction second := by
  unfold feesOf
  rw [List.filter_append, List.map_append, List.sum_append]

@[simp] theorem afterSpan_kept {walked : Walk} {step : SwapStep} {targetTick sqrtTarget : ℤ} :
    (afterSpan zeroForOne targetTick sqrtTarget walked step).state.position = walked.state.position ∧
      (afterSpan zeroForOne targetTick sqrtTarget walked step).fee0 = walked.fee0 ∧
      (afterSpan zeroForOne targetTick sqrtTarget walked step).fee1 = walked.fee1 ∧
      (afterSpan zeroForOne targetTick sqrtTarget walked step).remaining = walked.remaining - (step.amountIn + step.feeAmount) ∧
      (afterSpan zeroForOne targetTick sqrtTarget walked step).reconstructedLiquidity - walked.reconstructedLiquidity =
        (afterSpan zeroForOne targetTick sqrtTarget walked step).state.liquidity - walked.state.liquidity := by
  unfold afterSpan
  dsimp only
  split
  · refine ⟨rfl, rfl, rfl, rfl, ?_⟩
    unfold crossTick
    dsimp only
    omega
  · exact ⟨rfl, rfl, rfl, rfl, by dsimp only; omega⟩

section

variable (walks : walk feePpm sqrtPriceX96 eventTick zeroForOne rounds w = .ok w')
include walks

theorem walk_paid :
    SameShadow w.state.position w'.state.position ∧
      w'.fee0 = w.fee0 + feesOf Span.fee true (walkSpans feePpm sqrtPriceX96 zeroForOne rounds w) ∧
      w'.fee1 = w.fee1 + feesOf Span.fee false (walkSpans feePpm sqrtPriceX96 zeroForOne rounds w) := by
  induction rounds generalizing w with
  | zero =>
    obtain rfl := walk_out walks
    exact ⟨rfl, (add_zero _).symm, (add_zero _).symm⟩
  | succ rounds ih =>
    obtain ⟨spans, list, round⟩ := walk_round walks
    rw [list]
    cases round with
    | rests over' same =>
      obtain rfl := same
      exact ⟨rfl, (add_zero _).symm, (add_zero _).symm⟩
    | last given active aims spanned ends =>
      subst ends
      refine ⟨spanned.shadow, ?_, ?_⟩
      · dsimp only
        rw [spanned.fee0]
        cases zeroForOne <;> simp [spanOf]
      · dsimp only
        rw [spanned.fee1]
        cases zeroForOne <;> simp [spanOf]
    | spans given active priced aims spanned left later =>
      obtain ⟨shadow, fee0, fee1⟩ := ih later
      rw [afterSpan_kept.1] at shadow
      rw [afterSpan_kept.2.1, spanned.fee0] at fee0
      rw [afterSpan_kept.2.2.1, spanned.fee1] at fee1
      refine ⟨spanned.shadow.trans shadow, ?_, ?_⟩
      · rw [fee0, feesOf_cons]
        cases zeroForOne <;> simp [spanOf, add_assoc]
      · rw [fee1, feesOf_cons]
        cases zeroForOne <;> simp [spanOf, add_assoc]

theorem walkSpans_capped {span : Span}
    (member : span ∈ walkSpans feePpm sqrtPriceX96 zeroForOne rounds w) :
    ∃ remaining amountIn, 0 < remaining ∧ span.fee = cappedFee remaining amountIn (stepFee remaining feePpm) := by
  induction rounds generalizing w with
  | zero => cases member
  | succ rounds ih =>
    obtain ⟨spans, list, round⟩ := walk_round walks
    rw [list] at member
    cases round with
    | rests => cases member
    | last given _ _ spanned _ =>
      obtain rfl := List.mem_singleton.mp member
      exact ⟨_, _, given, step_fee spanned.computed⟩
    | spans given _ _ _ spanned _ later =>
      rcases List.mem_cons.mp member with rfl | rest
      · exact ⟨_, _, given, step_fee spanned.computed⟩
      · exact ih later rest

theorem walkSpans_nonneg {span : Span}
    (member : span ∈ walkSpans feePpm sqrtPriceX96 zeroForOne rounds w) : 0 ≤ span.fee := by
  obtain ⟨remaining, amountIn, _, paid⟩ := walkSpans_capped walks member
  rw [paid]
  exact cappedFee_nonneg

end

theorem walkSpans_done (done : w.remaining ≤ 0) : walkSpans feePpm sqrtPriceX96 zeroForOne rounds w = [] := by
  cases rounds with
  | zero => rfl
  | succ rounds =>
    unfold walkSpans
    rw [if_neg (fun some' => not_lt.mpr done some'.1)]

section Fee

variable (least : 0 ≤ feePpm) (most : feePpm < ConcentratedPool.feeUnits)

theorem getSqrtRatioAtTick_nonneg {tick ratio : ℤ} (priced : getSqrtRatioAtTick tick = .ok ratio) : 0 ≤ ratio := by
  unfold getSqrtRatioAtTick at priced
  split at priced
  · cases priced
    exact Int.natCast_nonneg _
  · cases priced

include least most in
theorem walk_negative (negative : w.state.liquidity < 0) (walks : walk feePpm sqrtPriceX96 eventTick zeroForOne rounds w = .ok w') :
    w'.reconstructedLiquidity = w.reconstructedLiquidity := by
  induction rounds generalizing w with
  | zero => rw [walk_out walks]
  | succ rounds ih =>
    obtain ⟨spans, list, round⟩ := walk_round walks
    cases round with
    | rests over' same => rw [same]
    | last given active aims spanned ends =>
      rw [ends]
      exact spanned.reconstructed
    | @spans walked step targetTick sqrtTarget given active priced aims spanned left later =>
      have short := negative_short least most given negative (getSqrtRatioAtTick_nonneg priced) spanned.computed
      unfold afterSpan at later
      dsimp only at later
      rw [if_neg short] at later
      rw [ih (by rw [spanned.liquidity]; exact negative) later]
      exact spanned.reconstructed

include least most in
theorem walk_active (follows : w.reconstructedLiquidity = w.state.liquidity)
    (walks : walk feePpm sqrtPriceX96 eventTick zeroForOne rounds w = .ok w') (ends : 0 ≤ w'.reconstructedLiquidity) :
    ∀ span ∈ walkSpans feePpm sqrtPriceX96 zeroForOne rounds w, 0 < span.liquidity := by
  induction rounds generalizing w with
  | zero => simp [walkSpans]
  | succ rounds ih =>
    have here : w.state.liquidity ≠ 0 → 0 < w.state.liquidity := by
      intro active
      apply lt_of_le_of_ne _ active.symm
      apply not_lt.mp
      intro negative
      have kept := walk_negative least most negative walks
      omega
    obtain ⟨spans, list, round⟩ := walk_round walks
    rw [list]
    intro span member
    cases round with
    | rests => cases member
    | last _ active =>
      obtain rfl := List.mem_singleton.mp member
      exact here active
    | @spans walked step targetTick sqrtTarget _ active _ _ spanned _ later =>
      rcases List.mem_cons.mp member with rfl | rest
      · exact here active
      · have moved := (@afterSpan_kept zeroForOne walked step targetTick sqrtTarget).2.2.2.2
        have before := spanned.liquidity
        have same := spanned.reconstructed
        exact ih (by omega) later span rest

def TakesAll (feePpm sqrtPriceX96 : ℤ) (zeroForOne : Bool) (s : ReplayState) (input : ℤ) : Prop :=
  ∃ target step, spanTarget sqrtPriceX96 zeroForOne s = .ok target ∧
    computeSwapStep s.sqrtP target s.liquidity input feePpm = .ok step ∧ input ≤ step.amountIn

theorem stepFee_none_iff (given : 0 < remaining) (least : 0 ≤ feePpm) {amountIn : ℤ} :
    cappedFee remaining amountIn (stepFee remaining feePpm) = 0 ↔ feePpm = 0 ∨ remaining ≤ amountIn := by
  rcases least.lt_or_eq with charges | none'
  · rw [cappedFee_zero_iff (stepFee_pos given charges)]
    constructor
    · exact Or.inr
    · rintro (none' | takes)
      · omega
      · exact takes
  · rw [← none', stepFee_free]
    unfold cappedFee
    dsimp only
    constructor
    · exact fun _ => Or.inl rfl
    · intro _
      split <;> split <;> omega

include least in
theorem walk_free_iff (given : 0 < w.remaining) (active : w.state.liquidity ≠ 0)
    (walks : walk feePpm sqrtPriceX96 eventTick zeroForOne (rounds + 1) w = .ok w') :
    (∀ span ∈ walkSpans feePpm sqrtPriceX96 zeroForOne (rounds + 1) w, span.fee = 0) ↔
      feePpm = 0 ∨ TakesAll feePpm sqrtPriceX96 zeroForOne w.state w.remaining := by
  have takesAll {target : ℤ} {step : SwapStep} (aims : spanTarget sqrtPriceX96 zeroForOne w.state = .ok target)
      (computed : computeSwapStep w.state.sqrtP target w.state.liquidity w.remaining feePpm = .ok step) :
      TakesAll feePpm sqrtPriceX96 zeroForOne w.state w.remaining ↔ w.remaining ≤ step.amountIn := by
    constructor
    · rintro ⟨other, taken, aimed, reached, takes⟩
      rw [aims] at aimed
      cases aimed
      rw [computed] at reached
      cases reached
      exact takes
    · exact fun takes => ⟨target, step, aims, computed, takes⟩
  have everyFree : feePpm = 0 → ∀ span ∈ walkSpans feePpm sqrtPriceX96 zeroForOne (rounds + 1) w, span.fee = 0 := by
    intro none' span member
    obtain ⟨remaining, amountIn, positive, paid⟩ := walkSpans_capped walks member
    rw [paid]
    exact (stepFee_none_iff positive least).mpr (Or.inl none')
  obtain ⟨spans, list, round⟩ := walk_round walks
  rw [list] at everyFree ⊢
  cases round with
  | rests over' => exact absurd ⟨given, active⟩ over'
  | @last _ step _ _ aims spanned _ =>
    rw [takesAll aims spanned.computed, ← stepFee_none_iff given least, ← step_fee spanned.computed, List.forall_mem_singleton]
    rfl
  | @spans walked step targetTick sqrtTarget _ _ _ aims spanned left later =>
    rw [takesAll aims spanned.computed]
    constructor
    · intro free
      rw [← stepFee_none_iff given least, ← step_fee spanned.computed]
      exact free _ List.mem_cons_self
    · rintro (none' | takes)
      · exact everyFree none'
      · -- nothing is left for a second span
        have paid : step.feeAmount = 0 := by
          rw [step_fee spanned.computed]
          exact (stepFee_none_iff given least).mpr (Or.inr takes)
        have kept := spanned.remaining
        rw [walkSpans_done (by rw [afterSpan_kept.2.2.2.1]; omega), List.forall_mem_singleton]
        exact paid

end Fee

/-- A swap that bears no fee: it only sets the price, puts nothing in, or is one span whose input, rounded up, is all of it. -/
def Uncharged (feePpm : ℤ) (s : ReplayState) (e : SwapEvent) : Prop :=
  s.sqrtP = 0 ∨ s.liquidity = 0 ∨ e.input ≤ 0 ∨ TakesAll feePpm e.sqrtPriceX96 e.zeroForOne s e.input

variable {s s' : ReplayState} {e : SwapEvent} {result : SwapResult}

theorem applySwap_cases (applied : applySwap s e.amount0 e.amount1 e.sqrtPriceX96 e.liquidity e.tick feePpm = .ok (s', result)) :
    ((s.sqrtP = 0 ∨ s.liquidity = 0) ∧ s' = adopt s e.sqrtPriceX96 e.liquidity e.tick ∧ result = ⟨0, 0, e.liquidity⟩) ∨
      (¬ (s.sqrtP = 0 ∨ s.liquidity = 0) ∧ ∃ w', walk feePpm e.sqrtPriceX96 e.tick e.zeroForOne 10000 ⟨s, e.input, 0, 0, s.liquidity⟩ = .ok w' ∧
        s' = adopt w'.state e.sqrtPriceX96 e.liquidity e.tick ∧ result = ⟨w'.fee0, w'.fee1, w'.reconstructedLiquidity⟩) := by
  unfold applySwap at applied
  dsimp only at applied
  split at applied
  · rename_i unpriced
    cases applied
    exact Or.inl ⟨unpriced, rfl, rfl⟩
  · rename_i priced
    obtain ⟨w', walks, ends⟩ := Fallible.bind_ok applied
    cases ends
    exact Or.inr ⟨priced, w', walks, rfl, rfl⟩

theorem applySwap_paid (applied : applySwap s e.amount0 e.amount1 e.sqrtPriceX96 e.liquidity e.tick feePpm = .ok (s', result)) :
    s'.sqrtP = e.sqrtPriceX96 ∧ SameShadow s.position s'.position ∧ result.fee0 = feesOf Span.fee true (swapSpans feePpm s e) ∧
      result.fee1 = feesOf Span.fee false (swapSpans feePpm s e) := by
  unfold swapSpans
  rcases applySwap_cases applied with ⟨unpriced, rfl, rfl⟩ | ⟨priced, w', walks, rfl, rfl⟩
  · rw [if_pos unpriced]
    exact ⟨rfl, rfl, rfl, rfl⟩
  · rw [if_neg priced]
    obtain ⟨shadow, fee0, fee1⟩ := walk_paid walks
    exact ⟨rfl, shadow, fee0.trans (zero_add _), fee1.trans (zero_add _)⟩

theorem swapSpans_active (least : 0 ≤ feePpm) (most : feePpm < ConcentratedPool.feeUnits)
    (applied : applySwap s e.amount0 e.amount1 e.sqrtPriceX96 e.liquidity e.tick feePpm = .ok (s', result))
    (ends : result.reconstructedLiquidity = e.liquidity) {span : Span} (member : span ∈ swapSpans feePpm s e) :
    0 < span.liquidity ∧ 0 ≤ span.fee := by
  unfold swapSpans at member
  rcases applySwap_cases applied with ⟨unpriced, _, _⟩ | ⟨priced, w', walks, _, rfl⟩
  · rw [if_pos unpriced] at member
    cases member
  · rw [if_neg priced] at member
    have final : 0 ≤ w'.reconstructedLiquidity := by
      change w'.reconstructedLiquidity = e.liquidity at ends
      omega
    exact ⟨walk_active least most rfl walks final span member, walkSpans_nonneg walks member⟩

theorem swapSpans_free_iff (least : 0 ≤ feePpm)
    (applied : applySwap s e.amount0 e.amount1 e.sqrtPriceX96 e.liquidity e.tick feePpm = .ok (s', result)) :
    (∀ span ∈ swapSpans feePpm s e, span.fee = 0) ↔ feePpm = 0 ∨ Uncharged feePpm s e := by
  unfold swapSpans Uncharged
  rcases applySwap_cases applied with ⟨unpriced, _, _⟩ | ⟨priced, w', walks, _, _⟩
  · rw [if_pos unpriced]
    constructor
    · rcases unpriced with price | active
      · exact fun _ => Or.inr (Or.inl price)
      · exact fun _ => Or.inr (Or.inr (Or.inl active))
    · intro _ span member
      cases member
  · rw [if_neg priced]
    obtain ⟨price, active⟩ := not_or.mp priced
    rcases le_or_gt e.input 0 with done | given
    · rw [walkSpans_done done]
      constructor
      · exact fun _ => Or.inr (Or.inr (Or.inr (Or.inl done)))
      · intro _ span member
        cases member
    · have free := walk_free_iff least (w := ⟨s, e.input, 0, 0, s.liquidity⟩) given active walks
      constructor
      · intro every
        rcases free.mp every with none' | takes
        · exact Or.inl none'
        · exact Or.inr (Or.inr (Or.inr (Or.inr takes)))
      · rintro (none' | zero | zero | done | takes)
        · exact free.mpr (Or.inl none')
        · exact absurd zero price
        · exact absurd zero active
        · exact absurd done (not_le.mpr given)
        · exact free.mpr (Or.inr takes)

variable {args : ShadowArgs} {span : Span} {spans : List Span}

theorem own_bounds (active : 0 < span.liquidity) (paid : 0 ≤ span.fee) :
    0 ≤ span.own args ∧ span.own args ≤ span.fee ∧ (span.own args = span.fee → span.fee = 0) := by
  have total : 0 < span.liquidity + args.liquidity := by omega
  have share : 0 ≤ span.fee * args.liquidity := mul_nonneg paid (Int.natCast_nonneg _)
  unfold Span.own
  split
  · refine ⟨Int.ediv_nonneg share total.le, ?_, ?_⟩
    · apply Int.ediv_le_of_le_mul total
      nlinarith
    · intro whole
      have floor := Int.ediv_mul_le (span.fee * args.liquidity) total.ne'
      rw [whole] at floor
      nlinarith
  · exact ⟨le_rfl, paid, Eq.symm⟩

theorem feesOf_own_le (active : ∀ span ∈ spans, 0 < span.liquidity ∧ 0 ≤ span.fee) (direction : Bool) :
    feesOf (Span.own args) direction spans ≤ feesOf Span.fee direction spans := by
  induction spans with
  | nil => exact le_rfl
  | cons span rest ih =>
    have rest' := ih fun other member => active other (List.mem_cons_of_mem _ member)
    obtain ⟨some', paid⟩ := active span List.mem_cons_self
    have bounds := (@own_bounds args span some' paid).2.1
    rw [feesOf_cons, feesOf_cons]
    split <;> omega

theorem feesOf_free (free : ∀ span ∈ spans, span.fee = 0) (direction : Bool) :
    feesOf Span.fee direction spans = 0 ∧ feesOf (Span.own args) direction spans = 0 := by
  induction spans with
  | nil => exact ⟨rfl, rfl⟩
  | cons span rest ih =>
    obtain ⟨fees, shares⟩ := ih fun other member => free other (List.mem_cons_of_mem _ member)
    have none' := free span List.mem_cons_self
    have share : span.own args = 0 := by
      unfold Span.own
      rw [none', zero_mul, Int.zero_ediv, ite_self]
    rw [feesOf_cons, feesOf_cons, fees, shares, none', share, ite_self]
    exact ⟨rfl, rfl⟩

theorem feesOf_own_iff (active : ∀ span ∈ spans, 0 < span.liquidity ∧ 0 ≤ span.fee) :
    (feesOf Span.fee true spans = feesOf (Span.own args) true spans ∧ feesOf Span.fee false spans = feesOf (Span.own args) false spans) ↔
      ∀ span ∈ spans, span.fee = 0 := by
  constructor
  · rintro ⟨down, up⟩
    induction spans with
    | nil => simp
    | cons span rest ih =>
      have later := fun other member => active other (List.mem_cons_of_mem span member)
      obtain ⟨some', paid⟩ := active span List.mem_cons_self
      obtain ⟨_, least, whole⟩ := @own_bounds args span some' paid
      have downRest := @feesOf_own_le args rest later true
      have upRest := @feesOf_own_le args rest later false
      rw [feesOf_cons, feesOf_cons] at down up
      have here : span.own args = span.fee ∧ feesOf Span.fee true rest = feesOf (Span.own args) true rest ∧
          feesOf Span.fee false rest = feesOf (Span.own args) false rest := by
        cases direction : span.zeroForOne <;> simp only [direction, if_true, Bool.false_eq_true, Bool.true_eq_false, if_false] at down up <;> omega
      exact List.forall_mem_cons.mpr ⟨whole here.1, ih later here.2.1 here.2.2⟩
  · intro free
    have down := @feesOf_free args spans free true
    have up := @feesOf_free args spans free false
    exact ⟨down.1.trans down.2.symm, up.1.trans up.2.symm⟩

theorem feesOf_own_idle (idle : args.liquidity = 0) (direction : Bool) : feesOf (Span.own args) direction spans = 0 := by
  have none' : Span.own args = fun _ => 0 := by
    funext span
    unfold Span.own
    rw [idle, Nat.cast_zero, mul_zero, Int.zero_ediv, ite_self]
  unfold feesOf
  rw [none', List.map_const', List.sum_replicate, nsmul_zero]

/-- The turn ends the loop with the run at `last`, or leaves the position from there. -/
def Turn.EndsAt (last : ShadowRun) : Turn → Prop
  | .goes run => run = last
  | .mismatch _ => False
  | .exits run out => last.entered = true ∧ ∃ s, exitPosition last.s = .ok (s, out) ∧ run = { last with s := s }

structure Advanced (feePpm : ℤ) (swaps : List (ReplayState × SwapEvent)) (run last : ShadowRun) : Prop where
  shadow : SameShadow run.s.position last.s.position
  fees0 : last.fees0 = run.fees0 + feesOf Span.fee true (spansOf feePpm swaps)
  fees1 : last.fees1 = run.fees1 + feesOf Span.fee false (spansOf feePpm swaps)
  active : ∀ span ∈ spansOf feePpm swaps, 0 < span.liquidity ∧ 0 ≤ span.fee
  free : (∀ span ∈ spansOf feePpm swaps, span.fee = 0) ↔ feePpm = 0 ∨ ∀ swap ∈ swaps, Uncharged feePpm swap.1 swap.2
  price : last.s.sqrtP = priceAfter run.s.sqrtP swaps

variable {run middle last : ShadowRun} {turn : Turn}

theorem spansOf_append {first second : List (ReplayState × SwapEvent)} :
    spansOf feePpm (first ++ second) = spansOf feePpm first ++ spansOf feePpm second := List.flatMap_append

theorem Advanced.still (shadow : SameShadow run.s.position last.s.position) (fees0 : last.fees0 = run.fees0) (fees1 : last.fees1 = run.fees1)
    (price : last.s.sqrtP = run.s.sqrtP) : Advanced feePpm [] run last where
  shadow := shadow
  fees0 := fees0.trans (add_zero _).symm
  fees1 := fees1.trans (add_zero _).symm
  active := by simp [spansOf]
  free := by simp [spansOf]
  price := price

theorem Advanced.append {first second : List (ReplayState × SwapEvent)} (earlier : Advanced feePpm first run middle)
    (later : Advanced feePpm second middle last) : Advanced feePpm (first ++ second) run last where
  shadow := earlier.shadow.trans later.shadow
  fees0 := by
    rw [later.fees0, earlier.fees0, spansOf_append, feesOf_append, add_assoc]
  fees1 := by
    rw [later.fees1, earlier.fees1, spansOf_append, feesOf_append, add_assoc]
  active := by
    intro span member
    rw [spansOf_append] at member
    rcases List.mem_append.mp member with before | after
    · exact earlier.active span before
    · exact later.active span after
  free := by
    have parts : (∀ span ∈ spansOf feePpm (first ++ second), span.fee = 0) ↔
        (∀ span ∈ spansOf feePpm first, span.fee = 0) ∧ ∀ span ∈ spansOf feePpm second, span.fee = 0 := by
      rw [spansOf_append]
      exact List.forall_mem_append
    rw [parts, earlier.free, later.free, List.forall_mem_append, or_and_left]
  price := by
    rw [later.price, earlier.price]
    unfold priceAfter
    rw [List.foldl_append]

theorem replaySwap_ends (least : 0 ≤ feePpm) (most : feePpm < ConcentratedPool.feeUnits) (replays : replaySwap feePpm args run e = .ok turn)
    (agrees : ∀ stopped, turn ≠ .mismatch stopped) :
    ∃ last, turn.EndsAt last ∧ Advanced feePpm (appliedSwap args run (.swap e)) run last := by
  unfold replaySwap at replays
  unfold appliedSwap
  dsimp only at replays ⊢
  by_cases inside : enters args run = true
  · rw [inside] at replays
    rw [if_pos inside]
    simp only [Bool.not_true, Bool.false_eq_true, if_false] at replays
    obtain ⟨⟨s, r⟩, applied, replays⟩ := Fallible.bind_ok replays
    dsimp only at replays
    split at replays
    · cases replays
      exact absurd rfl (agrees _)
    · rename_i matched
      have ends : r.reconstructedLiquidity = e.liquidity := not_not.mp matched
      obtain ⟨price, shadow, fee0, fee1⟩ := applySwap_paid applied
      have one : spansOf feePpm [(run.s, e)] = swapSpans feePpm run.s e := by simp [spansOf]
      -- the run before the position is left, where it is
      refine ⟨{ run with
        s := s
        swapsSeen := run.swapsSeen + 1
        entered := true
        entryActiveLiquidity := run.entryActiveLiquidity.or (some e.liquidity)
        fees0 := run.fees0 + r.fee0
        fees1 := run.fees1 + r.fee1 }, ?_, ?_⟩
      · obtain ⟨sqrtB, _, replays⟩ := Fallible.bind_ok replays
        obtain ⟨sqrtA, _, replays⟩ := Fallible.bind_ok replays
        split at replays
        · obtain ⟨⟨left, out⟩, leaves, replays⟩ := Fallible.bind_ok replays
          cases replays
          exact ⟨rfl, left, leaves, rfl⟩
        · cases replays
          rfl
      · refine ⟨shadow, ?_, ?_, ?_, ?_, price⟩
        · rw [one, ← fee0]
        · rw [one, ← fee1]
        · rw [one]
          exact fun span member => swapSpans_active least most applied ends member
        · rw [one, List.forall_mem_singleton]
          exact swapSpans_free_iff least applied
  · have outside := Bool.not_eq_true _ ▸ inside
    rw [outside] at replays
    rw [if_neg inside]
    cases replays
    exact ⟨_, rfl, Advanced.still rfl rfl rfl rfl⟩

theorem shiftLiquidity_kept {lower upper amount : ℤ} (shifted : shiftLiquidity s lower upper amount = .ok s') :
    s'.position = s.position ∧ s'.sqrtP = s.sqrtP := by
  unfold shiftLiquidity at shifted
  obtain ⟨sqrtA, _, shifted⟩ := Fallible.bind_ok shifted
  obtain ⟨sqrtB, _, shifted⟩ := Fallible.bind_ok shifted
  cases shifted
  exact ⟨rfl, rfl⟩

theorem shift_ends {lower upper amount : ℤ} (replays : ((shiftLiquidity run.s lower upper amount).map fun s => Turn.goes { run with s := s }) = .ok turn) :
    ∃ last, turn.EndsAt last ∧ Advanced feePpm [] run last := by
  cases shifted : shiftLiquidity run.s lower upper amount with
  | error other =>
    rw [shifted] at replays
    cases replays
  | ok s =>
    obtain ⟨position, price⟩ := shiftLiquidity_kept shifted
    rw [shifted] at replays
    cases replays
    refine ⟨_, rfl, Advanced.still ?_ rfl rfl price⟩
    show SameShadow run.s.position s.position
    rw [position]
    rfl

theorem replayEvent_ends {event : StoredEvent} (least : 0 ≤ feePpm) (most : feePpm < ConcentratedPool.feeUnits)
    (replays : replayEvent feePpm args run event = .ok turn) (agrees : ∀ stopped, turn ≠ .mismatch stopped) :
    ∃ last, turn.EndsAt last ∧ Advanced feePpm (appliedSwap args run event) run last := by
  cases event with
  | mint lower upper amount => exact shift_ends replays
  | burn lower upper amount => exact shift_ends replays
  | swap e => exact replaySwap_ends least most replays agrees
  | other kind =>
    cases replays
    exact ⟨run, rfl, Advanced.still rfl rfl rfl rfl⟩

variable {events : List StoredEvent}

theorem replayEvents_ends (least : 0 ≤ feePpm) (most : feePpm < ConcentratedPool.feeUnits)
    (replays : replayEvents feePpm args events run = .ok turn) (agrees : ∀ stopped, turn ≠ .mismatch stopped) :
    ∃ last, turn.EndsAt last ∧ Advanced feePpm (replayedSwaps feePpm args events run) run last := by
  induction events generalizing run with
  | nil =>
    cases replays
    exact ⟨run, rfl, Advanced.still rfl rfl rfl rfl⟩
  | cons event rest ih =>
    unfold replayEvents at replays
    unfold replayedSwaps
    obtain ⟨first, replayed, replays⟩ := Fallible.bind_ok replays
    rw [replayed]
    cases first with
    | goes next =>
      obtain ⟨middle, rfl, earlier⟩ := replayEvent_ends least most replayed (by simp)
      obtain ⟨last, ends, later⟩ := ih replays
      exact ⟨last, ends, earlier.append later⟩
    | mismatch stopped =>
      cases replays
      exact absurd rfl (agrees stopped)
    | exits stopped out =>
      cases replays
      obtain ⟨last, ends, only⟩ := replayEvent_ends least most replayed agrees
      rw [List.append_nil]
      exact ⟨last, ends, only⟩

def shadowAmounts (args : ShadowArgs) (sqrtP : ℤ) : Mint.TokenAmounts :=
  Mint.getAmountsForLiquidity sqrtP.toNat (Mint.ratioAt args.tickLower) (Mint.ratioAt args.tickUpper) args.liquidity

/-- The ledger is the shadow position's own, over the swaps that the driver applied. -/
structure ShadowOwn (args : ShadowArgs) (feePpm : ℤ) (swaps : List (ReplayState × SwapEvent)) (ledger : ShadowLedger) : Prop where
  fees0 : ledger.fees0 = feesOf (Span.own args) true (spansOf feePpm swaps)
  fees1 : ledger.fees1 = feesOf (Span.own args) false (spansOf feePpm swaps)
  idle : args.liquidity = 0 → ledger.fees0 = 0 ∧ ledger.fees1 = 0
  within0 : ledger.fees0 ≤ feesOf Span.fee true (spansOf feePpm swaps)
  within1 : ledger.fees1 ≤ feesOf Span.fee false (spansOf feePpm swaps)
  outside : ledger.exit = none → ledger.principal0 = 0 ∧ ledger.principal1 = 0
  principal : ledger.exit ≠ none →
    ledger.principal0 = (shadowAmounts args (priceAfter 0 swaps)).amount0 ∧ ledger.principal1 = (shadowAmounts args (priceAfter 0 swaps)).amount1

theorem getSqrtRatioAtTick_toNat {tick ratio : ℤ} (priced : getSqrtRatioAtTick tick = .ok ratio) : ratio.toNat = Mint.ratioAt tick := by
  unfold getSqrtRatioAtTick at priced
  unfold Mint.ratioAt
  split at priced
  · rename_i found
    cases priced
    rw [found]
    rfl
  · cases priced

theorem exitPosition_amounts {out : ExitAmounts} (shadow : SameShadow (shadowStart args).s.position s.position) (leaves : exitPosition s = .ok (s', out)) :
    out.amount0 = (shadowAmounts args s.sqrtP).amount0 ∧ out.amount1 = (shadowAmounts args s.sqrtP).amount1 := by
  unfold SameShadow at shadow
  unfold exitPosition at leaves
  dsimp only at leaves
  rw [shadow] at leaves
  change (if (!true) = true then Except.error ReplayError.notEntered else _) = _ at leaves
  simp only [Bool.not_true, Bool.false_eq_true, if_false] at leaves
  obtain ⟨sqrtA, lower, leaves⟩ := Fallible.bind_ok leaves
  obtain ⟨sqrtB, upper, leaves⟩ := Fallible.bind_ok leaves
  obtain ⟨burned, _, leaves⟩ := Fallible.bind_ok leaves
  cases leaves
  unfold shadowAmounts
  rw [getSqrtRatioAtTick_toNat lower, getSqrtRatioAtTick_toNat upper]
  exact ⟨rfl, rfl⟩

theorem replayHistory_fees {poolKey : String} {ledger : ShadowLedger} (least : 0 ≤ feePpm)
    (most : feePpm < ConcentratedPool.feeUnits) (replays : replayHistory poolKey feePpm events args = .ok ledger) (exact' : ledger.integrity = .exact) :
    ∃ last, Advanced feePpm (replayedSwaps feePpm args events (shadowStart args)) (shadowStart args) last ∧
      ledger.fees0 = last.fees0 ∧ ledger.fees1 = last.fees1 ∧
      (ledger.exit = none → ledger.principal0 = 0 ∧ ledger.principal1 = 0) ∧
      (ledger.exit ≠ none →
        ledger.principal0 = (shadowAmounts args last.s.sqrtP).amount0 ∧ ledger.principal1 = (shadowAmounts args last.s.sqrtP).amount1) := by
  unfold replayHistory at replays
  change (replayEvents feePpm args events (shadowStart args) >>= _) = _ at replays
  obtain ⟨turn, loop, replays⟩ := Fallible.bind_ok replays
  cases turn with
  | mismatch stopped =>
    cases replays
    cases exact'
  | exits run out =>
    obtain ⟨last, ⟨_, left, leaves, rfl⟩, advanced⟩ := replayEvents_ends least most loop (by simp)
    cases replays
    exact ⟨last, advanced, rfl, rfl, fun none' => (by cases none'), fun _ => exitPosition_amounts advanced.shadow leaves⟩
  | goes run =>
    obtain ⟨last, rfl, advanced⟩ := replayEvents_ends least most loop (by simp)
    dsimp only at replays
    split at replays
    · obtain ⟨⟨left, out⟩, leaves, replays⟩ := Fallible.bind_ok replays
      cases replays
      exact ⟨_, advanced, rfl, rfl, fun none' => (by cases none'), fun _ => exitPosition_amounts advanced.shadow leaves⟩
    · cases replays
      exact ⟨_, advanced, rfl, rfl, fun _ => ⟨rfl, rfl⟩, fun some' => absurd rfl some'⟩

theorem replayShadowPosition_history {poolKey : String} {row : VenueRow} {ledger : ShadowLedger}
    (replays : replayShadowPosition poolKey (some row) events args = .ok ledger) (exact' : ledger.integrity = .exact) :
    replayHistory poolKey row.feePpm events args = .ok ledger := by
  unfold replayShadowPosition at replays
  split at replays
  · cases replays
    cases exact'
  · rename_i found
    obtain rfl := Option.some.inj (Option.filter_eq_some_iff.mp found).1
    split at replays
    · cases replays
      cases exact'
    · split at replays
      · cases replays
        cases exact'
      · split at replays
        · cases replays
          cases exact'
        · cases replays
          cases exact'
        · exact replays

/-- The ledger of a replay that counts as exact is the shadow position's own exactly where the pool has no fee, or each swap
applied after the one that sets the price is a single span whose input, rounded up, is all of it. -/
theorem replayShadowPosition_own_iff {poolKey : String} {row : VenueRow} {events : List StoredEvent} {ledger : ShadowLedger}
    (static : row.feePpm < 1000000) (replays : replayShadowPosition poolKey (some row) events args = .ok ledger)
    (exact' : ledger.integrity = .exact) :
    ShadowOwn args row.feePpm (replayedSwaps row.feePpm args events (shadowStart args)) ledger ↔
      row.feePpm = 0 ∨ ∀ swap ∈ replayedSwaps row.feePpm args events (shadowStart args), Uncharged row.feePpm swap.1 swap.2 := by
  have most : (row.feePpm : ℤ) < ConcentratedPool.feeUnits := by
    unfold ConcentratedPool.feeUnits
    omega
  obtain ⟨last, advanced, fees0, fees1, outside, principal⟩ :=
    replayHistory_fees (Int.natCast_nonneg _) most (replayShadowPosition_history replays exact') exact'
  have paid0 : ledger.fees0 = _ := fees0.trans (advanced.fees0.trans (zero_add _))
  have paid1 : ledger.fees1 = _ := fees1.trans (advanced.fees1.trans (zero_add _))
  rw [advanced.price] at principal
  have shares := @feesOf_own_iff args _ advanced.active
  rw [← Int.natCast_eq_zero, ← advanced.free, ← shares, ← paid0, ← paid1]
  constructor
  · exact fun own => ⟨own.fees0, own.fees1⟩
  · rintro ⟨own0, own1⟩
    refine ⟨own0, own1, fun idle => ?_, paid0.le, paid1.le, outside, principal⟩
    rw [own0, own1]
    exact ⟨feesOf_own_idle idle true, feesOf_own_idle idle false⟩

theorem toOption_some {α : Type} {result : Replayed α} {value : α} : result.toOption = some value ↔ result = .ok value := by
  cases result <;> simp [Except.toOption]

instance (feePpm sqrtPriceX96 : ℤ) (zeroForOne : Bool) (s : ReplayState) (input : ℤ) : Decidable (TakesAll feePpm sqrtPriceX96 zeroForOne s input) :=
  decidable_of_iff
    (∃ target ∈ (spanTarget sqrtPriceX96 zeroForOne s).toOption, ∃ step ∈ (computeSwapStep s.sqrtP target s.liquidity input feePpm).toOption,
      input ≤ step.amountIn) <| by
    simp only [TakesAll, Option.mem_def, toOption_some]
    constructor
    · rintro ⟨target, aims, step, computed, takes⟩
      exact ⟨target, step, aims, computed, takes⟩
    · rintro ⟨target, step, aims, computed, takes⟩
      exact ⟨target, aims, step, computed, takes⟩

instance (feePpm : ℤ) (s : ReplayState) (e : SwapEvent) : Decidable (Uncharged feePpm s e) :=
  inferInstanceAs (Decidable (_ ∨ _ ∨ _ ∨ TakesAll _ _ _ _ _))

def sampleArgs : ShadowArgs := ⟨-120, 120, 1000000000, none⟩

def sampleHistory : List StoredEvent :=
  [.mint (-60) 60 1000000000, .swap ⟨10, -10, 2 ^ 96, 1000000000, 0⟩, .swap ⟨100, -98, 79228150000000000000000000000, 1000000000, -1⟩]

/-- All of the hundred goes into the span, none to the fee. -/
theorem replayShadowPosition_own_iff_sample :
    ShadowOwn sampleArgs 3000 (replayedSwaps 3000 sampleArgs sampleHistory (shadowStart sampleArgs))
      ⟨"pool", .exact, none, 2, some 1000000000, 0, 0, 5981895, 5981579, some .endOfHistory⟩ := by
  have replays : replayShadowPosition "pool" (some ⟨3000, "univ3"⟩) sampleHistory sampleArgs =
      .ok ⟨"pool", .exact, none, 2, some 1000000000, 0, 0, 5981895, 5981579, some .endOfHistory⟩ := by decide
  apply (replayShadowPosition_own_iff (by decide) replays rfl).mpr
  exact Or.inr (by decide)

def chargedHistory : List StoredEvent :=
  [.mint (-60) 60 1000000000, .swap ⟨10, -10, 2 ^ 96, 1000000000, 0⟩, .swap ⟨-9900, 10000, 79228952419044604808989757969, 1000000000, 0⟩]

/-- Half of the span's liquidity is the position's, and the ledger holds all of its fee. -/
theorem fees_of_whole_pool :
    ∃ ledger, replayShadowPosition "pool" (some ⟨3000, "univ3"⟩) chargedHistory sampleArgs = .ok ledger ∧ ledger.integrity = .exact ∧
      ledger.fees1 = 30 ∧ feesOf (Span.own sampleArgs) false (spansOf 3000 (replayedSwaps 3000 sampleArgs chargedHistory (shadowStart sampleArgs))) = 15 ∧
      ¬ ShadowOwn sampleArgs 3000 (replayedSwaps 3000 sampleArgs chargedHistory (shadowStart sampleArgs)) ledger := by
  have replays : replayShadowPosition "pool" (some ⟨3000, "univ3"⟩) chargedHistory sampleArgs =
      .ok ⟨"pool", .exact, none, 2, some 1000000000, 0, 30, 5971767, 5991707, some .endOfHistory⟩ := by decide
  have own : feesOf (Span.own sampleArgs) false (spansOf 3000 (replayedSwaps 3000 sampleArgs chargedHistory (shadowStart sampleArgs))) = 15 := by
    decide
  refine ⟨_, replays, rfl, rfl, own, fun holds => ?_⟩
  have paid := holds.fees1
  rw [own] at paid
  exact absurd paid (by decide)

end LpTerminal.Emerging.Replay
