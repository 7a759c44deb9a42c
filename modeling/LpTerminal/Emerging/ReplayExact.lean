import LpTerminal.Emerging.ReplayWalk

/-!
A replay of a pool's history against the pool: what it keeps step by step, and the histories that it
reproduces.
-/

namespace LpTerminal.Emerging.Replay

open ConcentratedPool (Pool PoolEvent Acts Terms TickScale activeAt liquidityOf within)

structure FeeTier where
  feePpm : ℤ
  spacing : ℤ
  fee_nonneg : 0 ≤ feePpm
  fee_lt : feePpm < ConcentratedPool.feeUnits
  spacing_pos : 0 < spacing

def tickScale : TickScale where
  ratio t := Mint.ratioAt t
  minTick := -Mint.maxTick
  maxTick := Mint.maxTick
  mono _ _ least later most := Int.ofNat_le.mpr (Mint.ratioAt_mono later least most)
  pos _ least most := Int.natCast_pos.mpr (Mint.ratioAt_pos least most)

def FeeTier.terms (tier : FeeTier) : Terms :=
  { tickScale with
    spacing := tier.spacing
    fee := tier.feePpm
    spacing_pos := tier.spacing_pos
    fee_nonneg := tier.fee_nonneg
    fee_lt := tier.fee_lt }

structure Created (terms : Terms) (pool : Pool) : Prop where
  tick : terms.HasTick pool.sqrtP pool.tick
  liquidity : pool.liquidity = 0
  positions : pool.positions = .empty

/-- The events of a pool in their order, with the steps of the shadow position between them. -/
inductive History (terms : Terms) : Pool → List ReplayStep → Prop
  | nil (pool : Pool) : History terms pool []
  | act {pool next : Pool} {event : PoolEvent} {rest : List ReplayStep} (acts : Acts terms pool event next)
      (later : History terms next rest) : History terms pool (.apply event :: rest)
  | pass {pool next : Pool} {amount0 amount1 sqrtPriceX96 liquidity tick : ℤ} {rest : List ReplayStep}
      (acts : Acts terms pool (.swap amount0 amount1 sqrtPriceX96 liquidity tick) next) (later : History terms next rest) :
      History terms pool (.skip :: rest)
  | enter {pool : Pool} {rest : List ReplayStep} (tickLower tickUpper : ℤ) (liquidity : ℕ) (later : History terms pool rest) :
      History terms pool (.enter tickLower tickUpper liquidity :: rest)
  | exit {pool : Pool} {rest : List ReplayStep} (later : History terms pool rest) : History terms pool (.exit :: rest)

def next (feePpm : ℤ) (s : ReplayState) (step : ReplayStep) : ReplayState :=
  match replayStep feePpm s step with
  | .error _ => s
  | .ok (s, _) => s

structure SamePool (s s' : ReplayState) : Prop where
  sqrtP : s'.sqrtP = s.sqrtP
  tick : s'.tick = s.tick
  liquidity : s'.liquidity = s.liquidity
  ticks : ∀ t, liquidityNet s'.ticks t = liquidityNet s.ticks t

def Faithful (feePpm : ℤ) (s : ReplayState) (step : ReplayStep) : Prop :=
  match replayStep feePpm s step with
  | .error _ => False
  | .ok (s', result) =>
    match step with
    | .apply (.swap _ _ _ liquidity _) => result.map SwapResult.reconstructedLiquidity = some liquidity
    | .enter _ _ _ => SamePool s s'
    | .exit => SamePool s s'
    | _ => True

def TickAgrees (s : ReplayState) (lower upper : ℤ) : Prop :=
  ((Mint.ratioAt lower : ℤ) ≤ s.sqrtP ∧ s.sqrtP < Mint.ratioAt upper) ↔ (lower ≤ s.tick ∧ s.tick < upper)

def Steady (feePpm : ℤ) (s : ReplayState) : ReplayStep → Prop
  | .apply (.mint lower upper _) => s.sqrtP ≠ 0 → TickAgrees s lower upper
  | .apply (.burn lower upper amount) => s.sqrtP ≠ 0 → amount ≠ 0 → TickAgrees s lower upper
  | .apply (.swap amount0 amount1 sqrtPriceX96 _ tick) => s.sqrtP ≠ 0 → s.liquidity ≠ 0 →
    ((ahead s.ticks (0 < amount0) s.tick).filter (passes (0 < amount0) tick)).length < 10000 ∧
      Charged feePpm sqrtPriceX96 tick (0 < amount0) s.ticks (ahead s.ticks (0 < amount0) s.tick) s.tick s.sqrtP s.liquidity
        (if 0 < amount0 then amount0 else amount1)
  | .skip => s.sqrtP = 0
  | .enter lower upper _ => s.position.entered = false ∧ TickInRange lower ∧ TickInRange upper
  | .exit => s.position.entered = true ∧ (s.position.liquidity = 0 ∨ s.position.tickLower = s.position.tickUpper)

instance (s : ReplayState) (lower upper : ℤ) : Decidable (TickAgrees s lower upper) := inferInstanceAs (Decidable (_ ↔ _))

instance (feePpm : ℤ) (s : ReplayState) : ∀ step, Decidable (Steady feePpm s step)
  | .apply (.mint lower upper _) => inferInstanceAs (Decidable (s.sqrtP ≠ 0 → TickAgrees s lower upper))
  | .apply (.burn lower upper amount) => inferInstanceAs (Decidable (s.sqrtP ≠ 0 → amount ≠ 0 → TickAgrees s lower upper))
  | .apply (.swap _ _ _ _ _) => inferInstanceAs (Decidable (s.sqrtP ≠ 0 → s.liquidity ≠ 0 → _ < 10000 ∧ Charged _ _ _ _ _ _ _ _ _ _))
  | .skip => inferInstanceAs (Decidable (s.sqrtP = 0))
  | .enter _ _ _ => inferInstanceAs (Decidable (s.position.entered = false ∧ (_ ∧ _) ∧ (_ ∧ _)))
  | .exit => inferInstanceAs (Decidable (s.position.entered = true ∧ (s.position.liquidity = 0 ∨ s.position.tickLower = s.position.tickUpper)))

structure Mirrors (pool : Pool) (s : ReplayState) : Prop where
  ticks : ∀ t, netBelow s.ticks t = activeAt pool.positions t
  inRange : ∀ t ∈ netTicks s.ticks, TickInRange t
  shadow : ShadowInRange s.position
  priced : s.sqrtP = 0 ∨ (s.sqrtP = pool.sqrtP ∧ s.tick = pool.tick ∧ s.liquidity = pool.liquidity)

variable {tier : FeeTier} {pool pool' : Pool} {s : ReplayState} {ticks : TickMap} {t origin amount lower upper : ℤ}

theorem liquidityNet_add : liquidityNet (addNet ticks origin amount) t = liquidityNet ticks t + if origin = t then amount else 0 := by
  unfold liquidityNet addNet
  by_cases same : t = origin
  · subst same
    rw [if_pos rfl, show t = (fun row : ℤ × ℤ => row.1) (t, liquidityNet ticks t + amount) from rfl, Table.get?_put_same]
    rfl
  · rw [if_neg (Ne.symm same), add_zero, Table.get?_put_other same]

theorem mem_netTicks_add (inside : t ∈ netTicks (addNet ticks origin amount)) : t = origin ∨ t ∈ netTicks ticks := by
  obtain ⟨net, stored, some'⟩ := mem_netTicks.mp inside
  rcases Table.mem_put.mp stored with same | ⟨old, -⟩
  · exact Or.inl (congrArg Prod.fst same)
  · exact Or.inr (mem_netTicks.mpr ⟨net, old, some'⟩)

theorem inRange_of_bitmap (bitmap : ConcentratedPool.OnBitmap tier.terms t) : TickInRange t := ⟨bitmap.2.1, bitmap.2.2⟩

theorem shiftLiquidity_ok (low : TickInRange lower) (high : TickInRange upper) :
    shiftLiquidity s lower upper amount = .ok { s with
      ticks := addNet (addNet s.ticks lower amount) upper (-amount)
      liquidity := if (Mint.ratioAt lower : ℤ) ≤ s.sqrtP ∧ s.sqrtP < Mint.ratioAt upper then s.liquidity + amount else s.liquidity } := by
  unfold shiftLiquidity
  rw [getSqrtRatioAtTick_ok low, getSqrtRatioAtTick_ok high]
  rfl

theorem netBelow_shift (ordered : lower < upper) :
    netBelow (addNet (addNet ticks lower amount) upper (-amount)) t = netBelow ticks t + within lower upper t amount := by
  rw [netBelow_add, netBelow_add]
  unfold within
  split <;> split <;> split <;> omega

theorem shift_mirrors {next : Pool} (mirrors : Mirrors pool s) (ordered : lower < upper) (low : TickInRange lower) (high : TickInRange upper)
    (agrees : s.sqrtP ≠ 0 → amount ≠ 0 → TickAgrees s lower upper) (price : next.sqrtP = pool.sqrtP) (tick : next.tick = pool.tick)
    (liquidity : next.liquidity = pool.liquidity + within lower upper pool.tick amount)
    (positions : ∀ t, activeAt next.positions t = activeAt pool.positions t + within lower upper t amount) :
    ∃ s', shiftLiquidity s lower upper amount = .ok s' ∧ Mirrors next s' := by
  refine ⟨_, shiftLiquidity_ok low high, fun t => ?_, fun t inside => ?_, mirrors.shadow, ?_⟩
  · rw [netBelow_shift ordered, mirrors.ticks, positions]
  · rcases mem_netTicks_add inside with rfl | inside
    · exact high
    · rcases mem_netTicks_add inside with rfl | inside
      · exact low
      · exact mirrors.inRange t inside
  · rcases mirrors.priced with unseen | ⟨samePrice, sameTick, sameLiquidity⟩
    · exact Or.inl unseen
    · by_cases unseen : s.sqrtP = 0
      · exact Or.inl unseen
      · refine Or.inr ⟨samePrice.trans price.symm, sameTick.trans tick.symm, ?_⟩
        rw [liquidity, sameLiquidity]
        unfold within
        by_cases nothing : amount = 0
        · simp [nothing]
        · have agree := agrees unseen nothing
          unfold TickAgrees at agree
          rw [sameTick] at agree
          dsimp only
          simp only [agree]
          split <;> omega

theorem applySwap_mirrors {amount0 amount1 sqrtPriceX96 liquidity tick : ℤ} (sound : pool.Sound tier.terms) (mirrors : Mirrors pool s)
    (acts : Acts tier.terms pool (.swap amount0 amount1 sqrtPriceX96 liquidity tick) pool')
    (steady : Steady tier.feePpm s (.apply (.swap amount0 amount1 sqrtPriceX96 liquidity tick))) :
    ∃ s' result, applySwap s amount0 amount1 sqrtPriceX96 liquidity tick tier.feePpm = .ok (s', result) ∧
      result.reconstructedLiquidity = liquidity ∧ Mirrors pool' s' := by
  have ended := ConcentratedPool.acts_sound sound acts
  obtain ⟨price, at', active, same⟩ : pool'.sqrtP = sqrtPriceX96 ∧ pool'.tick = tick ∧ pool'.liquidity = liquidity ∧ pool'.positions = pool.positions := by
    cases acts
    exact ⟨rfl, rfl, rfl, rfl⟩
  have adopted : ∀ {w : ReplayState}, w.ticks = s.ticks → ShadowInRange w.position → Mirrors pool' (adopt w sqrtPriceX96 liquidity tick) := by
    intro w ticks shadow
    unfold adopt
    refine ⟨fun t => ?_, ?_, shadow, Or.inr ⟨price.symm, at'.symm, active.symm⟩⟩
    · dsimp only
      rw [ticks, same]
      exact mirrors.ticks t
    · dsimp only
      rw [ticks]
      exact mirrors.inRange
  unfold applySwap
  dsimp only
  split
  · exact ⟨_, _, rfl, rfl, adopted rfl mirrors.shadow⟩
  · rename_i walks
    obtain ⟨seen, liquid⟩ := not_or.mp walks
    obtain ⟨few, charged⟩ := steady seen liquid
    have start : (if 0 < amount0 then amount0 else amount1) = if decide (0 < amount0) = true then amount0 else amount1 := by simp
    rw [start] at charged
    obtain ⟨w, walked, total, frame⟩ := @walk_charged (decide (0 < amount0)) tier.feePpm sqrtPriceX96 tick _ 10000
      ⟨s, if decide (0 < amount0) = true then amount0 else amount1, 0, 0, s.liquidity⟩ tier.fee_nonneg mirrors.inRange mirrors.shadow rfl few charged
    rw [walked]
    refine ⟨_, _, rfl, ?_, adopted frame.ticks (frame.position.inRange mirrors.shadow)⟩
    rcases mirrors.priced with unseen | ⟨-, sameTick, sameLiquidity⟩
    · exact absurd unseen seen
    · have before := sound.active
      have after := ended.active
      rw [same, at', active] at after
      dsimp only at total ⊢
      rw [total, mirrors.ticks, mirrors.ticks, sameLiquidity, sameTick, before, after]
      omega

theorem exitPosition_same (entered : s.position.entered = true) (shadow : ShadowInRange s.position)
    (empty : s.position.liquidity = 0 ∨ s.position.tickLower = s.position.tickUpper) :
    ∃ s' amounts, exitPosition s = .ok (s', amounts) ∧ SamePool s s' ∧ (∀ t, netBelow s'.ticks t = netBelow s.ticks t) ∧
      (∀ t ∈ netTicks s'.ticks, t = s.position.tickUpper ∨ t = s.position.tickLower ∨ t ∈ netTicks s.ticks) ∧ s'.position.entered = false := by
  obtain ⟨low, high⟩ := shadow entered
  unfold exitPosition applyBurn
  dsimp only
  rw [shiftLiquidity_ok low high, getSqrtRatioAtTick_ok low, getSqrtRatioAtTick_ok high]
  simp only [entered, Bool.not_true, Bool.false_eq_true, if_false, bind, Except.bind, pure, Except.pure]
  refine ⟨_, _, rfl, ⟨rfl, rfl, ?_, fun t => ?_⟩, fun t => ?_, fun t inside => ?_, rfl⟩
  · dsimp only
    rcases empty with none | same
    · simp [none]
    · rw [if_neg]
      rw [same]
      omega
  · rw [liquidityNet_add, liquidityNet_add]
    rcases empty with none | same
    · simp [none]
    · rw [same]
      split <;> omega
  · rw [netBelow_add, netBelow_add]
    rcases empty with none | same
    · simp [none]
    · rw [same]
      split <;> omega
  · rcases mem_netTicks_add inside with rfl | inside
    · exact Or.inl rfl
    · exact Or.inr (mem_netTicks_add inside)

theorem Faithful.next {feePpm : ℤ} {step : ReplayStep} {s' : ReplayState} {result : Option SwapResult}
    (ran : replayStep feePpm s step = .ok (s', result)) : Replay.next feePpm s step = s' := by
  unfold Replay.next
  rw [ran]

theorem apply_faithful {event : PoolEvent} (sound : pool.Sound tier.terms) (mirrors : Mirrors pool s) (acts : Acts tier.terms pool event pool')
    (steady : Steady tier.feePpm s (.apply event)) :
    Faithful tier.feePpm s (.apply event) ∧ Mirrors pool' (next tier.feePpm s (.apply event)) := by
  cases event with
  | mint lower upper amount =>
    cases acts with
    | mint ordered low high some' =>
      have positions : ∀ t, activeAt (pool.positions.put ⟨lower, upper, ordered, liquidityOf pool.positions lower upper + amount⟩) t =
          activeAt pool.positions t + within lower upper t amount := fun t => by
        rw [ConcentratedPool.activeAt_set, Nat.cast_add, add_sub_cancel_left]
      obtain ⟨s', ran, after⟩ := @shift_mirrors pool s amount lower upper { pool with
          liquidity := pool.liquidity + within lower upper pool.tick amount
          positions := pool.positions.put ⟨lower, upper, ordered, liquidityOf pool.positions lower upper + amount⟩ }
        mirrors ordered (inRange_of_bitmap low) (inRange_of_bitmap high) (fun seen _ => steady seen) rfl rfl rfl positions
      have step : replayStep tier.feePpm s (.apply (.mint lower upper amount)) = .ok (s', none) := by
        show (shiftLiquidity s lower upper amount).map _ = _
        rw [ran]
        rfl
      refine ⟨?_, Faithful.next step ▸ after⟩
      unfold Faithful
      rw [step]
      trivial
  | burn lower upper amount =>
    cases acts with
    | burn ordered low high held =>
      have positions : ∀ t, activeAt (pool.positions.put ⟨lower, upper, ordered, liquidityOf pool.positions lower upper - amount⟩) t =
          activeAt pool.positions t + within lower upper t (-amount) := fun t => by
        rw [ConcentratedPool.activeAt_set, Nat.cast_sub held, sub_sub_cancel_left]
      have liquidity : pool.liquidity - within lower upper pool.tick amount = pool.liquidity + within lower upper pool.tick (-amount) := by
        unfold within
        split <;> omega
      obtain ⟨s', ran, after⟩ := @shift_mirrors pool s (-amount) lower upper { pool with
          liquidity := pool.liquidity - within lower upper pool.tick amount
          positions := pool.positions.put ⟨lower, upper, ordered, liquidityOf pool.positions lower upper - amount⟩ }
        mirrors ordered (inRange_of_bitmap low) (inRange_of_bitmap high) (fun seen some' => steady seen (by omega)) rfl rfl liquidity positions
      have step : replayStep tier.feePpm s (.apply (.burn lower upper amount)) = .ok (s', none) := by
        show (shiftLiquidity s lower upper (-amount)).map _ = _
        rw [ran]
        rfl
      refine ⟨?_, Faithful.next step ▸ after⟩
      unfold Faithful
      rw [step]
      trivial
  | swap amount0 amount1 sqrtPriceX96 liquidity tick =>
    obtain ⟨s', result, ran, same, after⟩ := applySwap_mirrors sound mirrors acts steady
    have step : replayStep tier.feePpm s (.apply (.swap amount0 amount1 sqrtPriceX96 liquidity tick)) = .ok (s', some result) := by
      show (applySwap s amount0 amount1 sqrtPriceX96 liquidity tick tier.feePpm).map _ = _
      rw [ran]
      rfl
    refine ⟨?_, Faithful.next step ▸ after⟩
    unfold Faithful
    rw [step]
    exact congrArg some same

theorem enter_faithful {liquidity : ℕ} (mirrors : Mirrors pool s) (steady : Steady tier.feePpm s (.enter lower upper liquidity)) :
    Faithful tier.feePpm s (.enter lower upper liquidity) ∧ Mirrors pool (next tier.feePpm s (.enter lower upper liquidity)) := by
  obtain ⟨outside, low, high⟩ := steady
  have step : replayStep tier.feePpm s (.enter lower upper liquidity) =
      .ok ({ s with position := ⟨lower, upper, liquidity, true, 0, 0⟩ }, none) := by
    show (enterPosition s lower upper liquidity).map _ = _
    unfold enterPosition
    rw [outside]
    rfl
  refine ⟨?_, ?_⟩
  · unfold Faithful
    rw [step]
    exact ⟨rfl, rfl, rfl, fun _ => rfl⟩
  · rw [Faithful.next step]
    exact ⟨mirrors.ticks, mirrors.inRange, fun _ => ⟨low, high⟩, mirrors.priced⟩

theorem exit_faithful (mirrors : Mirrors pool s) (steady : Steady tier.feePpm s .exit) :
    Faithful tier.feePpm s .exit ∧ Mirrors pool (next tier.feePpm s .exit) := by
  obtain ⟨entered, empty⟩ := steady
  obtain ⟨low, high⟩ := mirrors.shadow entered
  obtain ⟨s', amounts, ran, same, below, inside, left⟩ := exitPosition_same entered mirrors.shadow empty
  have step : replayStep tier.feePpm s .exit = .ok (s', none) := by
    show (exitPosition s).map _ = _
    rw [ran]
    rfl
  refine ⟨?_, ?_⟩
  · unfold Faithful
    rw [step]
    exact same
  · rw [Faithful.next step]
    refine ⟨fun t => (below t).trans (mirrors.ticks t), fun t member => ?_, fun again => ?_, ?_⟩
    · rcases inside t member with rfl | rfl | old
      · exact high
      · exact low
      · exact mirrors.inRange t old
    · rw [left] at again
      cases again
    · rw [same.sqrtP, same.tick, same.liquidity]
      exact mirrors.priced

theorem replay_mirrors {steps : List ReplayStep} (history : History tier.terms pool steps) (sound : pool.Sound tier.terms) (mirrors : Mirrors pool s)
    (steady : Trace.Along (next tier.feePpm) (Steady tier.feePpm) s steps) : Trace.Along (next tier.feePpm) (Faithful tier.feePpm) s steps := by
  induction history generalizing s with
  | nil => trivial
  | act acts _ ih =>
    obtain ⟨own, later⟩ := steady
    obtain ⟨faithful, after⟩ := apply_faithful sound mirrors acts own
    exact ⟨faithful, ih (ConcentratedPool.acts_sound sound acts) after later⟩
  | pass acts _ ih =>
    obtain ⟨unseen, later⟩ := steady
    have positions := mirrors.ticks
    refine ⟨trivial, ih (ConcentratedPool.acts_sound sound acts) ⟨?_, mirrors.inRange, mirrors.shadow, Or.inl unseen⟩ later⟩
    cases acts
    exact positions
  | enter tickLower tickUpper liquidity _ ih =>
    obtain ⟨own, later⟩ := steady
    obtain ⟨faithful, after⟩ := enter_faithful mirrors own
    exact ⟨faithful, ih sound after later⟩
  | exit _ ih =>
    obtain ⟨own, later⟩ := steady
    obtain ⟨faithful, after⟩ := exit_faithful mirrors own
    exact ⟨faithful, ih sound after later⟩

theorem created_sound (created : Created tier.terms pool) : pool.Sound tier.terms := by
  obtain ⟨tick, liquidity, positions⟩ := created
  refine ⟨⟨tick.least, tick.most, tick.lower, tick.upper.le⟩, ?_, fun t set => ?_⟩
  · rw [liquidity, positions]
    rfl
  · rw [positions] at set
    cases set

theorem created_mirrors (created : Created tier.terms pool) : Mirrors pool initState := by
  refine ⟨fun t => ?_, fun t member => (List.not_mem_nil member).elim, nofun, Or.inl rfl⟩
  rw [created.positions]
  rfl

/-- A replay of a pool's whole history whose steps are all steady never throws, reconstructs the liquidity of
every swap, and is left alone by the shadow position. -/
theorem replay_faithful (tier : FeeTier) (pool : Pool) (created : Created tier.terms pool) (steps : List ReplayStep)
    (history : History tier.terms pool steps) (steady : Trace.Along (next tier.feePpm) (Steady tier.feePpm) initState steps) :
    Trace.Along (next tier.feePpm) (Faithful tier.feePpm) initState steps :=
  replay_mirrors history (created_sound created) (created_mirrors created) steady

def sampleTier : FeeTier := ⟨3000, 60, by decide, by decide, by decide⟩

def samplePool : Pool := ⟨2 ^ 96, 0, 0, .empty⟩

theorem samplePool_created : Created sampleTier.terms samplePool :=
  ⟨⟨by decide, by decide, by decide, by decide⟩, rfl, rfl⟩

def upwards : List ReplayStep :=
  [.apply (.mint (-60) 60 1000000000), .apply (.mint (-120) 120 1000000000),
    .apply (.swap (-9969) 10000 79228557466654471201266854152 2000000000 0), .enter (-60) 60 5000,
    .apply (.swap (-7942304) 8000000 79622846642810599499571985544 1000000000 99)]

theorem upwards_history : History sampleTier.terms samplePool upwards := by
  refine .act (.mint (by decide) (by decide) (by decide) (by decide)) (.act (.mint (by decide) (by decide) (by decide) (by decide)) ?_)
  refine .act (.swap false (2 ^ 97) 10000 ⟨0, 9969, 79228557466654471201266854152, 0, 2000000000⟩ (by decide) (by decide) ?_) (.enter _ _ _ ?_)
  · exact @ConcentratedPool.Loop.round _ _ _ _ 0 _ _ _ (by decide) (by decide) (by decide) (.done (Or.inl rfl))
  · refine .act (.swap false (2 ^ 97) 8000000 ⟨0, 7942304, 79622846642810599499571985544, 99, 1000000000⟩ (by decide) (by decide) ?_) (.nil _)
    refine @ConcentratedPool.Loop.round _ _ _ _ 60 _ _ ⟨1983210, 5980739, 79466191966197645195421774833, 60, 1000000000⟩
      (by decide) (by decide) (by decide) ?_
    exact @ConcentratedPool.Loop.round _ _ _ _ 99 _ _ _ (by decide) (by decide) (by decide) (.done (Or.inl rfl))

theorem replay_faithful_upwards : Trace.Along (next 3000) (Faithful 3000) initState upwards :=
  replay_faithful sampleTier samplePool samplePool_created upwards upwards_history (by decide)

def downwards : List ReplayStep :=
  [.apply (.mint (-60) 60 1000000000), .apply (.mint 0 60 1000000000),
    .apply (.swap (-9969) 10000 79228557466654471201266854152 2000000000 0),
    .apply (.swap 100000 (-99690) 79221054009088102118140889554 1000000000 (-2))]

theorem downwards_history : History sampleTier.terms samplePool downwards := by
  refine .act (.mint (by decide) (by decide) (by decide) (by decide)) (.act (.mint (by decide) (by decide) (by decide) (by decide)) ?_)
  refine .act (.swap false (2 ^ 97) 10000 ⟨0, 9969, 79228557466654471201266854152, 0, 2000000000⟩ (by decide) (by decide) ?_) ?_
  · exact @ConcentratedPool.Loop.round _ _ _ _ 0 _ _ _ (by decide) (by decide) (by decide) (.done (Or.inl rfl))
  · refine .act (.swap true (2 ^ 95) 100000 ⟨0, 99690, 79221054009088102118140889554, -2, 1000000000⟩ (by decide) (by decide) ?_) (.nil _)
    refine @ConcentratedPool.Loop.round _ _ _ _ 0 _ _ ⟨90000, 9969, 79228162514264337593543950336, -1, 1000000000⟩
      (by decide) (by decide) (by decide) ?_
    exact @ConcentratedPool.Loop.round _ _ _ _ (-2) _ _ _ (by decide) (by decide) (by decide) (.done (Or.inl rfl))

theorem Faithful.reconstructed {feePpm amount0 amount1 sqrtPriceX96 liquidity tick : ℤ}
    (faithful : Faithful feePpm s (.apply (.swap amount0 amount1 sqrtPriceX96 liquidity tick))) :
    ((replayStep feePpm s (.apply (.swap amount0 amount1 sqrtPriceX96 liquidity tick))).toOption.bind Prod.snd).map SwapResult.reconstructedLiquidity =
      some liquidity := by
  unfold Faithful at faithful
  split at faithful
  · exact faithful.elim
  · rename_i ran
    rw [ran]
    exact faithful

/-- The pool's own history of a swap that crosses the tick it is at is not reproduced. -/
theorem replay_misses_current_tick :
    ¬ ∀ (tier : FeeTier) (pool : Pool), Created tier.terms pool → ∀ steps, History tier.terms pool steps →
      Trace.Along (next tier.feePpm) (Faithful tier.feePpm) initState steps := by
  intro reproduced
  obtain ⟨-, -, -, crossing, -⟩ := reproduced sampleTier samplePool samplePool_created downwards downwards_history
  exact absurd crossing.reconstructed (by decide)

end LpTerminal.Emerging.Replay
