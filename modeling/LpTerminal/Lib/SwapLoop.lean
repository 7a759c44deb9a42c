import LpTerminal.Lib.ConcentratedPool
import LpTerminal.Lib.SwapMath

/-!
The swap loop of a pool of concentrated liquidity, tick by tick over the bitmap, and what every mint, burn
and swap keeps: the active liquidity is that of the positions whose range holds the tick.
-/

namespace ConcentratedPool

/-- A pool's prices, its tick spacing and its fee. -/
structure Terms extends TickScale where
  spacing : ℤ
  fee : ℤ
  spacing_pos : 0 < spacing
  fee_nonneg : 0 ≤ fee
  fee_lt : fee < feeUnits

/-- The tick of a price. -/
structure TickScale.HasTick (scale : TickScale) (price t : ℤ) : Prop where
  least : scale.minTick ≤ t
  most : t < scale.maxTick
  lower : scale.ratio t ≤ price
  upper : price < scale.ratio (t + 1)

instance (scale : TickScale) (price t : ℤ) : Decidable (scale.HasTick price t) :=
  decidable_of_iff (scale.minTick ≤ t ∧ t < scale.maxTick ∧ scale.ratio t ≤ price ∧ price < scale.ratio (t + 1))
    ⟨fun ⟨least, most, lower, upper⟩ => ⟨least, most, lower, upper⟩, fun tick => ⟨tick.least, tick.most, tick.lower, tick.upper⟩⟩

variable {terms : Terms} {positions : Positions}

def nextWithinOneWord (spacing : ℤ) (positions : Positions) (tick : ℤ) (lte : Bool) : ℤ × Bool :=
  let compressed := tick / spacing
  if lte then
    let bit := compressed % 256
    match (List.range (bit.toNat + 1)).find? fun i : ℕ => initialized positions ((compressed - i) * spacing) with
    | some i => ((compressed - i) * spacing, true)
    | none => ((compressed - bit) * spacing, false)
  else
    let bit := (compressed + 1) % 256
    match (List.range (256 - bit.toNat)).find? fun i : ℕ => initialized positions ((compressed + 1 + i) * spacing) with
    | some i => ((compressed + 1 + i) * spacing, true)
    | none => ((compressed + 1 + (255 - bit)) * spacing, false)

def Spaced (terms : Terms) (positions : Positions) : Prop :=
  ∀ t, initialized positions t = true → terms.spacing ∣ t ∧ terms.minTick ≤ t ∧ t ≤ terms.maxTick

theorem nextWithinOneWord_down {tick : ℤ} (spaced : Spaced terms positions) :
    (nextWithinOneWord terms.spacing positions tick true).1 ≤ tick ∧
      (nextWithinOneWord terms.spacing positions tick true).2 = initialized positions (nextWithinOneWord terms.spacing positions tick true).1 ∧
      ∀ t, (nextWithinOneWord terms.spacing positions tick true).1 < t → t ≤ tick → initialized positions t = false := by
  have positive := terms.spacing_pos
  have floor : tick / terms.spacing * terms.spacing ≤ tick := Int.ediv_mul_le tick positive.ne'
  have bit := Int.emod_nonneg (tick / terms.spacing) (by decide : (256 : ℤ) ≠ 0)
  -- every initialized tick up to here is a bit of the word, or below it
  have searched : ∀ i : ℕ, (∀ j : ℕ, j < i → initialized positions ((tick / terms.spacing - j) * terms.spacing) = false) →
      ∀ t, (tick / terms.spacing - i) * terms.spacing < t → t ≤ tick → initialized positions t = false := by
    intro i clear t above below
    by_contra set
    obtain ⟨⟨k, rfl⟩, -, -⟩ := spaced t (by simpa using set)
    rw [mul_comm terms.spacing k] at above below set
    have most : k ≤ tick / terms.spacing := (Int.le_ediv_iff_mul_le positive).mpr below
    have least : tick / terms.spacing - i < k := lt_of_mul_lt_mul_right above positive.le
    have found := clear (tick / terms.spacing - k).toNat (by omega)
    rw [show tick / terms.spacing - ((tick / terms.spacing - k).toNat : ℤ) = k by omega] at found
    exact set found
  unfold nextWithinOneWord
  dsimp only
  rw [if_pos rfl]
  split
  · rename_i i found
    obtain ⟨set, -, clear⟩ := List.find?_range_eq_some.mp found
    refine ⟨?_, set.symm, searched i fun j before => by simpa using clear j before⟩
    have less : (tick / terms.spacing - i) * terms.spacing ≤ tick / terms.spacing * terms.spacing :=
      Int.mul_le_mul_of_nonneg_right (by omega) positive.le
    exact less.trans floor
  · rename_i none
    have clear := List.find?_range_eq_none.mp none
    have last : (tick / terms.spacing - tick / terms.spacing % 256 : ℤ) = tick / terms.spacing - ((tick / terms.spacing % 256).toNat : ℤ) := by omega
    refine ⟨?_, ?_, ?_⟩
    · have less : (tick / terms.spacing - tick / terms.spacing % 256) * terms.spacing ≤ tick / terms.spacing * terms.spacing :=
        Int.mul_le_mul_of_nonneg_right (by omega) positive.le
      exact less.trans floor
    · have own := clear (tick / terms.spacing % 256).toNat (by omega)
      rw [last]
      simpa using own.symm
    · intro t above below
      rw [last] at above
      exact searched _ (fun j before => by simpa using clear j (by omega)) t above below

theorem nextWithinOneWord_up {tick : ℤ} (spaced : Spaced terms positions) :
    tick < (nextWithinOneWord terms.spacing positions tick false).1 ∧
      (nextWithinOneWord terms.spacing positions tick false).2 = initialized positions (nextWithinOneWord terms.spacing positions tick false).1 ∧
      ∀ t, tick < t → t < (nextWithinOneWord terms.spacing positions tick false).1 → initialized positions t = false := by
  have positive := terms.spacing_pos
  have ahead : tick < (tick / terms.spacing + 1) * terms.spacing := Int.lt_ediv_add_one_mul_self tick positive
  have bit := Int.emod_nonneg (tick / terms.spacing + 1) (by decide : (256 : ℤ) ≠ 0)
  have word := Int.emod_lt_of_pos (tick / terms.spacing + 1) (by decide : (0 : ℤ) < 256)
  have searched : ∀ i : ℕ, (∀ j : ℕ, j < i → initialized positions ((tick / terms.spacing + 1 + j) * terms.spacing) = false) →
      ∀ t, tick < t → t < (tick / terms.spacing + 1 + i) * terms.spacing → initialized positions t = false := by
    intro i clear t above below
    by_contra set
    obtain ⟨⟨k, rfl⟩, -, -⟩ := spaced t (by simpa using set)
    rw [mul_comm terms.spacing k] at above below set
    have least : tick / terms.spacing < k := (Int.ediv_lt_iff_lt_mul positive).mpr above
    have most : k < tick / terms.spacing + 1 + i := lt_of_mul_lt_mul_right below positive.le
    have found := clear (k - tick / terms.spacing - 1).toNat (by omega)
    rw [show tick / terms.spacing + 1 + ((k - tick / terms.spacing - 1).toNat : ℤ) = k by omega] at found
    exact set found
  unfold nextWithinOneWord
  dsimp only
  rw [if_neg (by decide)]
  split
  · rename_i i found
    obtain ⟨set, -, clear⟩ := List.find?_range_eq_some.mp found
    refine ⟨?_, set.symm, searched i fun j before => by simpa using clear j before⟩
    have more : (tick / terms.spacing + 1) * terms.spacing ≤ (tick / terms.spacing + 1 + i) * terms.spacing :=
      Int.mul_le_mul_of_nonneg_right (by omega) positive.le
    exact ahead.trans_le more
  · rename_i none
    have clear := List.find?_range_eq_none.mp none
    have last : tick / terms.spacing + 1 + (255 - (tick / terms.spacing + 1) % 256) =
        tick / terms.spacing + 1 + ((255 - (tick / terms.spacing + 1) % 256).toNat : ℤ) := by omega
    rw [last]
    refine ⟨?_, ?_, ?_⟩
    · have more : (tick / terms.spacing + 1) * terms.spacing ≤
          (tick / terms.spacing + 1 + ((255 - (tick / terms.spacing + 1) % 256).toNat : ℤ)) * terms.spacing :=
        Int.mul_le_mul_of_nonneg_right (by omega) positive.le
      exact ahead.trans_le more
    · have own := clear (255 - (tick / terms.spacing + 1) % 256).toNat (by omega)
      simpa using own.symm
    · exact searched _ fun j before => by simpa using clear j (by omega)

structure LoopState where
  remaining : ℤ
  out : ℤ
  sqrtP : ℤ
  tick : ℤ
  liquidity : ℤ
  deriving DecidableEq

section Loop

variable (terms : Terms) (positions : Positions) (zeroForOne : Bool) (limit : ℤ)

def nextTick (s : LoopState) : ℤ × Bool :=
  let next := nextWithinOneWord terms.spacing positions s.tick zeroForOne
  (max terms.minTick (min terms.maxTick next.1), next.2)

def spanTarget (s : LoopState) : ℤ :=
  if zeroForOne then max (terms.ratio (nextTick terms positions zeroForOne s).1) limit
  else min (terms.ratio (nextTick terms positions zeroForOne s).1) limit

def span (s : LoopState) : SpanStep :=
  spanStep s.sqrtP (spanTarget terms positions zeroForOne limit s) s.liquidity s.remaining terms.fee

/-- One round, where `tick` is the tick of the price it ends at. -/
def advance (tick : ℤ) (s : LoopState) : LoopState :=
  let step := span terms positions zeroForOne limit s
  let next := nextTick terms positions zeroForOne s
  let net := if zeroForOne then -netAt positions next.1 else netAt positions next.1
  { remaining := s.remaining - (step.amountIn + step.feeAmount)
    out := s.out + step.amountOut
    sqrtP := step.sqrtNext
    liquidity := if step.sqrtNext = terms.ratio next.1 ∧ next.2 = true then s.liquidity + net else s.liquidity
    tick :=
      if step.sqrtNext = terms.ratio next.1 then (if zeroForOne then next.1 - 1 else next.1)
      else if step.sqrtNext = s.sqrtP then s.tick
      else tick }

inductive Loop : LoopState → LoopState → Prop
  | done {s : LoopState} (spent : s.remaining = 0 ∨ s.sqrtP = limit) : Loop s s
  | step {s s' : LoopState} (tick : ℤ) (going : s.remaining ≠ 0 ∧ s.sqrtP ≠ limit)
      (ends : terms.HasTick (span terms positions zeroForOne limit s).sqrtNext tick)
      (rest : Loop (advance terms positions zeroForOne limit tick s) s') : Loop s s'

end Loop

/-- The price is that of the tick, or of the next one after a crossing downwards. -/
structure Priced (terms : Terms) (sqrtP tick : ℤ) : Prop where
  least : terms.minTick ≤ tick
  most : tick < terms.maxTick
  lower : terms.ratio tick ≤ sqrtP
  upper : sqrtP ≤ terms.ratio (tick + 1)

/-- What holds between two rounds. -/
structure Going (terms : Terms) (positions : Positions) (zeroForOne : Bool) (limit : ℤ) (s : LoopState) : Prop where
  priced : Priced terms s.sqrtP s.tick
  active : s.liquidity = activeAt positions s.tick
  given : 0 ≤ s.remaining
  limited : if zeroForOne then terms.ratio terms.minTick < limit ∧ limit ≤ s.sqrtP else s.sqrtP ≤ limit ∧ limit < terms.ratio terms.maxTick

variable {zeroForOne : Bool} {limit tick : ℤ} {s s' : LoopState}

theorem Loop.round {s'' : LoopState} (going : s.remaining ≠ 0 ∧ s.sqrtP ≠ limit)
    (ends : terms.HasTick (span terms positions zeroForOne limit s).sqrtNext tick)
    (reached : advance terms positions zeroForOne limit tick s = s'') (rest : Loop terms positions zeroForOne limit s'' s') :
    Loop terms positions zeroForOne limit s s' :=
  .step tick going ends (reached ▸ rest)

section

variable (spaced : Spaced terms positions)
include spaced

theorem uninitialized_of_spaced {t : ℤ} (outside : t < terms.minTick ∨ terms.maxTick < t) :
    initialized positions t = false := by
  by_contra set
  obtain ⟨-, least, most⟩ := spaced t (by simpa using set)
  omega

theorem nextTick_down (least : terms.minTick ≤ s.tick) (most : s.tick < terms.maxTick) :
    terms.minTick ≤ (nextTick terms positions true s).1 ∧ (nextTick terms positions true s).1 ≤ s.tick ∧
      (nextTick terms positions true s).2 = initialized positions (nextTick terms positions true s).1 ∧
      ∀ t, (nextTick terms positions true s).1 < t → t ≤ s.tick → initialized positions t = false := by
  obtain ⟨below, flag, clear⟩ := @nextWithinOneWord_down terms positions s.tick spaced
  unfold nextTick
  dsimp only
  rcases le_or_gt terms.minTick (nextWithinOneWord terms.spacing positions s.tick true).1 with inside | outside
  · rw [min_eq_right (by omega), max_eq_right inside]
    exact ⟨inside, below, flag, clear⟩
  · rw [min_eq_right (by omega), max_eq_left outside.le, flag]
    refine ⟨le_rfl, least, ?_, fun t above => clear t (outside.trans above)⟩
    rw [uninitialized_of_spaced spaced (Or.inl outside), clear _ outside least]

theorem nextTick_up (least : terms.minTick ≤ s.tick) (most : s.tick < terms.maxTick) :
    s.tick < (nextTick terms positions false s).1 ∧ (nextTick terms positions false s).1 ≤ terms.maxTick ∧
      (nextTick terms positions false s).2 = initialized positions (nextTick terms positions false s).1 ∧
      ∀ t, s.tick < t → t < (nextTick terms positions false s).1 → initialized positions t = false := by
  obtain ⟨above, flag, clear⟩ := @nextWithinOneWord_up terms positions s.tick spaced
  unfold nextTick
  dsimp only
  rcases le_or_gt (nextWithinOneWord terms.spacing positions s.tick false).1 terms.maxTick with inside | outside
  · rw [min_eq_right inside, max_eq_right (by omega)]
    exact ⟨above, inside, flag, clear⟩
  · rw [min_eq_left outside.le, max_eq_right (by omega), flag]
    refine ⟨most, le_rfl, ?_, fun t later before => clear t later (before.trans outside)⟩
    rw [uninitialized_of_spaced spaced (Or.inr outside), clear _ most outside]

theorem advance_down (going : Going terms positions true limit s)
    (ends : terms.HasTick (span terms positions true limit s).sqrtNext tick) :
    Going terms positions true limit (advance terms positions true limit tick s) := by
  obtain ⟨⟨least, most, lower, upper⟩, active, given, limited⟩ := going
  obtain ⟨floor, bounded⟩ : terms.ratio terms.minTick < limit ∧ limit ≤ s.sqrtP := limited
  obtain ⟨inside, below, flag, clear⟩ := @nextTick_down terms positions s spaced least most
  have step : span terms positions true limit s =
      spanStep s.sqrtP (max (terms.ratio (nextTick terms positions true s).1) limit) s.liquidity s.remaining terms.fee := rfl
  unfold advance
  generalize nextTick terms positions true s = next at *
  obtain ⟨n, initial⟩ := next
  dsimp only at inside below flag clear step ⊢
  have positive : 0 < max (terms.ratio n) limit := lt_max_of_lt_left (terms.pos n inside (by omega))
  have under : max (terms.ratio n) limit ≤ s.sqrtP := max_le ((terms.mono n s.tick inside below most.le).trans lower) bounded
  obtain ⟨past, before⟩ := @spanStep_down s.sqrtP (max (terms.ratio n) limit) s.liquidity s.remaining terms.fee terms.fee_lt given positive under
  have within := @spanStep_within s.sqrtP (max (terms.ratio n) limit) s.liquidity s.remaining terms.fee terms.fee_lt given positive
  rw [← step] at past before within
  generalize span terms positions true limit s = spanned at *
  have crossing : activeAt positions n = s.liquidity := by
    rw [active]
    exact (activeAt_clear below clear).symm
  by_cases reached : spanned.sqrtNext = terms.ratio n
  · have above : terms.minTick < n := by
      refine lt_of_le_of_ne inside fun same => ?_
      rw [reached, ← same] at past
      exact absurd ((le_max_right _ _).trans past) (not_le.mpr floor)
    refine ⟨?_, ?_, by dsimp only; omega, ?_⟩
    · dsimp only
      rw [if_pos reached, if_pos rfl, reached]
      exact ⟨by omega, by omega, terms.mono _ _ (by omega) (by omega) (by omega), le_of_eq (by rw [sub_add_cancel])⟩
    · simp only [reached, true_and, if_true]
      have crossed := @activeAt_step positions n
      split
      · omega
      · rename_i clean
        rw [netAt_uninitialized (by rw [← flag]; simpa using clean)] at crossed
        omega
    · exact ⟨floor, (le_max_right _ _).trans past⟩
  · refine ⟨?_, ?_, by dsimp only; omega, ⟨floor, (le_max_right _ _).trans past⟩⟩
    · dsimp only
      rw [if_neg reached]
      split
      · rename_i still
        rw [still]
        exact ⟨least, most, lower, upper⟩
      · exact ⟨ends.least, ends.most, ends.lower, ends.upper.le⟩
    · dsimp only
      rw [if_neg reached, if_neg (fun both => reached both.1)]
      split
      · exact active
      · rename_i moved
        have after : n ≤ tick := by
          by_contra early
          have order := terms.mono (tick + 1) n (by have := ends.least; omega) (by omega) (by omega)
          exact absurd (order.trans ((le_max_left _ _).trans past)) (not_le.mpr ends.upper)
        have until' : tick ≤ s.tick := by
          by_contra late
          have order := terms.mono (s.tick + 1) tick (by omega) (by omega) ends.most.le
          have drop : spanned.sqrtNext < s.sqrtP := lt_of_le_of_ne before moved
          exact absurd (upper.trans (order.trans ends.lower)) (not_le.mpr drop)
        rw [active]
        exact activeAt_clear until' fun t later => clear t (by omega)

theorem advance_up (going : Going terms positions false limit s)
    (ends : terms.HasTick (span terms positions false limit s).sqrtNext tick) :
    Going terms positions false limit (advance terms positions false limit tick s) := by
  obtain ⟨⟨least, most, lower, upper⟩, active, given, limited⟩ := going
  obtain ⟨under, ceiling⟩ : s.sqrtP ≤ limit ∧ limit < terms.ratio terms.maxTick := limited
  obtain ⟨above, inside, flag, clear⟩ := @nextTick_up terms positions s spaced least most
  have step : span terms positions false limit s =
      spanStep s.sqrtP (min (terms.ratio (nextTick terms positions false s).1) limit) s.liquidity s.remaining terms.fee := rfl
  unfold advance
  generalize nextTick terms positions false s = next at *
  obtain ⟨n, initial⟩ := next
  dsimp only at above inside flag clear step ⊢
  have priced : 0 < s.sqrtP := (terms.pos s.tick least most.le).trans_le lower
  have bounded : s.sqrtP ≤ min (terms.ratio n) limit := le_min (upper.trans (terms.mono _ _ (by omega) (by omega) inside)) under
  obtain ⟨past, before⟩ := @spanStep_up s.sqrtP (min (terms.ratio n) limit) s.liquidity s.remaining terms.fee terms.fee_lt given priced bounded
  have within := @spanStep_within s.sqrtP (min (terms.ratio n) limit) s.liquidity s.remaining terms.fee terms.fee_lt given (priced.trans_le bounded)
  rw [← step] at past before within
  generalize span terms positions false limit s = spanned at *
  by_cases reached : spanned.sqrtNext = terms.ratio n
  · have below : n < terms.maxTick := by
      refine lt_of_le_of_ne inside fun same => ?_
      rw [reached, same] at before
      exact absurd (before.trans (min_le_right _ _)) (not_le.mpr ceiling)
    refine ⟨?_, ?_, by dsimp only; omega, ?_⟩
    · dsimp only
      rw [if_pos reached, if_neg (by decide), reached]
      exact ⟨by omega, by omega, le_rfl, terms.mono _ _ (by omega) (by omega) (by omega)⟩
    · simp only [reached, true_and, if_true, Bool.false_eq_true, if_false]
      have crossed := @activeAt_step positions n
      have arriving : activeAt positions (n - 1) = activeAt positions s.tick :=
        activeAt_clear (by omega) fun t later until' => clear t later (by omega)
      split
      · omega
      · rename_i clean
        rw [netAt_uninitialized (by rw [← flag]; simpa using clean)] at crossed
        omega
    · exact ⟨before.trans (min_le_right _ _), ceiling⟩
  · refine ⟨?_, ?_, by dsimp only; omega, ⟨before.trans (min_le_right _ _), ceiling⟩⟩
    · dsimp only
      rw [if_neg reached]
      split
      · rename_i still
        rw [still]
        exact ⟨least, most, lower, upper⟩
      · exact ⟨ends.least, ends.most, ends.lower, ends.upper.le⟩
    · dsimp only
      rw [if_neg reached, if_neg (fun both => reached both.1)]
      split
      · exact active
      · rename_i moved
        have rise : s.sqrtP < spanned.sqrtNext := lt_of_le_of_ne past (Ne.symm moved)
        have after : s.tick ≤ tick := by
          by_contra early
          have order := terms.mono (tick + 1) s.tick (by have := ends.least; omega) (by omega) most.le
          exact absurd (order.trans (lower.trans rise.le)) (not_le.mpr ends.upper)
        have until' : tick < n := by
          by_contra late
          have order := terms.mono n tick (by omega) (by omega) ends.most.le
          exact reached (le_antisymm (before.trans (min_le_left _ _)) (order.trans ends.lower))
        rw [active]
        exact (activeAt_clear after fun t later => fun reaching => clear t later (by omega)).symm

theorem loop_going (loop : Loop terms positions zeroForOne limit s s')
    (going : Going terms positions zeroForOne limit s) : Going terms positions zeroForOne limit s' := by
  induction loop with
  | done => exact going
  | step tick _ ends _ ih =>
    refine ih ?_
    cases zeroForOne with
    | true => exact advance_down spaced going ends
    | false => exact advance_up spaced going ends

end

structure Pool where
  sqrtP : ℤ
  tick : ℤ
  liquidity : ℤ
  positions : Positions

/-- What a pool logs. -/
inductive PoolEvent
  | mint (lower upper : ℤ) (amount : ℕ)
  | burn (lower upper : ℤ) (amount : ℕ)
  | swap (amount0 amount1 sqrtPriceX96 liquidity tick : ℤ)

def within (lower upper t amount : ℤ) : ℤ := if lower ≤ t ∧ t < upper then amount else 0

def OnBitmap (terms : Terms) (t : ℤ) : Prop := terms.spacing ∣ t ∧ terms.minTick ≤ t ∧ t ≤ terms.maxTick

instance (terms : Terms) (t : ℤ) : Decidable (OnBitmap terms t) := inferInstanceAs (Decidable (_ ∣ _ ∧ _ ∧ _))

/-- What a pool does and logs. A swap is of an exact input, up to a price limit. -/
inductive Acts (terms : Terms) : Pool → PoolEvent → Pool → Prop
  | mint {pool : Pool} {lower upper : ℤ} {amount : ℕ} (ordered : lower < upper) (low : OnBitmap terms lower) (high : OnBitmap terms upper)
      (some' : 0 < amount) :
      Acts terms pool (.mint lower upper amount)
        { pool with
          liquidity := pool.liquidity + within lower upper pool.tick amount
          positions := pool.positions.put ⟨lower, upper, ordered, liquidityOf pool.positions lower upper + amount⟩ }
  | burn {pool : Pool} {lower upper : ℤ} {amount : ℕ} (ordered : lower < upper) (low : OnBitmap terms lower) (high : OnBitmap terms upper)
      (held : amount ≤ liquidityOf pool.positions lower upper) :
      Acts terms pool (.burn lower upper amount)
        { pool with
          liquidity := pool.liquidity - within lower upper pool.tick amount
          positions := pool.positions.put ⟨lower, upper, ordered, liquidityOf pool.positions lower upper - amount⟩ }
  | swap {pool : Pool} (zeroForOne : Bool) (limit amount : ℤ) (s : LoopState) (given : 0 < amount)
      (limited : if zeroForOne then terms.ratio terms.minTick < limit ∧ limit < pool.sqrtP else pool.sqrtP < limit ∧ limit < terms.ratio terms.maxTick)
      (loop : Loop terms pool.positions zeroForOne limit ⟨amount, 0, pool.sqrtP, pool.tick, pool.liquidity⟩ s) :
      Acts terms pool
        (.swap (if zeroForOne then amount - s.remaining else -s.out) (if zeroForOne then -s.out else amount - s.remaining) s.sqrtP s.liquidity s.tick)
        { pool with sqrtP := s.sqrtP, tick := s.tick, liquidity := s.liquidity }

structure Pool.Sound (terms : Terms) (pool : Pool) : Prop where
  priced : Priced terms pool.sqrtP pool.tick
  active : pool.liquidity = activeAt pool.positions pool.tick
  spaced : Spaced terms pool.positions

theorem activeAt_set {lower upper t : ℤ} {ordered : lower < upper} {liquidity : ℕ} :
    activeAt (positions.put ⟨lower, upper, ordered, liquidity⟩) t =
      activeAt positions t + within lower upper t (liquidity - liquidityOf positions lower upper) := by
  have put := @activeAt_put positions t ⟨lower, upper, ordered, liquidity⟩
  unfold Position.share at put
  unfold within
  dsimp only at put
  split at put <;> split <;> omega

theorem Spaced.put {position : Position} (spaced : Spaced terms positions) (low : OnBitmap terms position.lower) (high : OnBitmap terms position.upper) :
    Spaced terms (positions.put position) := by
  intro t set
  have put := @Table.total_put_all _ _ _ Position.range _ _ positions (Position.gross t) position
  have whole := @Table.total_remove _ _ _ Position.range _ _ positions (Position.gross t) position.range
  have some' : (positions.put position).total (fun _ => true) (Position.gross t) ≠ 0 := by simpa [initialized] using set
  by_cases own : position.gross t = 0
  · refine spaced t ?_
    unfold initialized
    simp only [ne_eq, decide_eq_true_eq]
    omega
  · unfold Position.gross at own
    split at own
    · rename_i bound
      rcases bound with rfl | rfl
      · exact low
      · exact high
    · exact absurd rfl own

theorem acts_sound {pool pool' : Pool} {event : PoolEvent} (sound : pool.Sound terms) (acts : Acts terms pool event pool') : pool'.Sound terms := by
  cases acts with
  | mint ordered low high some' =>
    refine ⟨sound.priced, ?_, sound.spaced.put low high⟩
    dsimp only
    rw [activeAt_set, sound.active, Nat.cast_add, add_sub_cancel_left]
  | burn ordered low high held =>
    refine ⟨sound.priced, ?_, sound.spaced.put low high⟩
    dsimp only
    rw [activeAt_set, sound.active, Nat.cast_sub held]
    unfold within
    split <;> omega
  | swap zeroForOne limit amount s given limited loop =>
    have start : Going terms pool.positions zeroForOne limit ⟨amount, 0, pool.sqrtP, pool.tick, pool.liquidity⟩ := by
      refine ⟨sound.priced, sound.active, given.le, ?_⟩
      cases zeroForOne with
      | true => exact ⟨limited.1, le_of_lt limited.2⟩
      | false => exact ⟨le_of_lt limited.1, limited.2⟩
    have ended := loop_going sound.spaced loop start
    exact ⟨ended.priced, ended.active, sound.spaced⟩

end ConcentratedPool
