import LpTerminal.Emerging.MinutesExact
import Mathlib.Tactic.Linarith

/-!
The volume of a minute against the USDG legs of its swaps, in both token orders.
-/

namespace LpTerminal.Emerging.Minutes

variable {tune : AggregateTune} {pool : Discovery} {m : ℤ} {swaps : List Payload} {complete : Bool}

def usdgAmount (tune : AggregateTune) (pool : Discovery) (swap : Payload) : ℤ :=
  if pool.token1 = some tune.usdg then swap.amount1.getD 0 else swap.amount0.getD 0

def exchangeTokens (pool : Discovery) : Discovery := { pool with token0 := pool.token1, token1 := pool.token0 }

def exchangeAmounts (swap : Payload) : Payload := { swap with amount0 := swap.amount1, amount1 := swap.amount0 }

/-- The row that `writeMinute` writes. -/
def minuteRow (tune : AggregateTune) (pool : Discovery) (m : ℤ) (swaps : List Payload) (complete : Bool) : MinuteBucket :=
  minuteBucket tune.aggregateVersion pool.poolKey (provenQuoteUsdg tune pool) m swaps complete

structure Oriented (tune : AggregateTune) (pool : Discovery) (m : ℤ) (swaps : List Payload) (complete : Bool) : Prop where
  volume : (minuteRow tune pool m swaps complete).volQuote = some (swaps.map fun swap => |usdgAmount tune pool swap|).sum
  sides : ∃ buy sell, (minuteRow tune pool m swaps complete).buyVolQuote = some buy ∧
    (minuteRow tune pool m swaps complete).sellVolQuote = some sell ∧ (minuteRow tune pool m swaps complete).volQuote = some (buy + sell)
  exchanged : (minuteRow tune (exchangeTokens pool) m (swaps.map exchangeAmounts) complete).volQuote = (minuteRow tune pool m swaps complete).volQuote
  buys : (minuteRow tune (exchangeTokens pool) m (swaps.map exchangeAmounts) complete).buyCount = (minuteRow tune pool m swaps complete).buyCount
  sells : (minuteRow tune (exchangeTokens pool) m (swaps.map exchangeAmounts) complete).sellCount = (minuteRow tune pool m swaps complete).sellCount

def paysOut (swap : Payload) : Bool := isBuy swap || isSell swap

def onlyFirstOut (swap : Payload) : Bool := isBuy swap && !isBuy (exchangeAmounts swap)

/-- As many swaps pay only token 0 out as only token 1, these and the swaps that pay both out move the same of either token, and
a swap that pays none out moves no USDG. -/
structure Symmetric (tune : AggregateTune) (pool : Discovery) (swaps : List Payload) : Prop where
  counts : swaps.countP onlyFirstOut = swaps.countP isSell
  legs : ((swaps.filter paysOut).map fun swap => |swap.amount0.getD 0|).sum = ((swaps.filter paysOut).map fun swap => |swap.amount1.getD 0|).sum
  idle : ∀ swap ∈ swaps, paysOut swap = false → usdgAmount tune pool swap = 0

theorem size_eq_abs (amount : ℤ) : size amount = |amount| := by
  unfold size
  split
  · rename_i positive
    exact (abs_of_pos positive).symm
  · rename_i nonpositive
    exact (abs_of_nonpos (not_lt.mp nonpositive)).symm

@[simp] theorem exchangeAmounts_exchange (swap : Payload) : exchangeAmounts (exchangeAmounts swap) = swap := rfl

theorem paysOut_iff {swap : Payload} : paysOut swap = true ↔ swap.amount0.getD 0 < 0 ∨ swap.amount1.getD 0 < 0 := by
  unfold paysOut isSell isBuy
  by_cases buy : swap.amount0.getD 0 < 0 <;> simp [buy]

@[simp] theorem paysOut_exchange (swap : Payload) : paysOut (exchangeAmounts swap) = paysOut swap := by
  apply Bool.eq_iff_iff.mpr
  rw [paysOut_iff, paysOut_iff]
  exact or_comm

theorem isSell_exchange (swap : Payload) : isSell (exchangeAmounts swap) = onlyFirstOut swap := by
  unfold isSell onlyFirstOut
  rw [Bool.and_comm]
  rfl

theorem volume_eq : (swaps.map fun swap => buyVolume swap + sellVolume swap).sum = ((swaps.filter paysOut).map fun swap => |swap.amount1.getD 0|).sum := by
  induction swaps with
  | nil => rfl
  | cons swap rest ih =>
    have here : buyVolume swap + sellVolume swap = if paysOut swap then |swap.amount1.getD 0| else 0 := by
      unfold buyVolume sellVolume paysOut
      cases buy : isBuy swap with
      | true => simp [isSell, buy, size_eq_abs]
      | false =>
        cases sell : isSell swap with
        | true =>
          have negative : swap.amount1.getD 0 < 0 := by simpa [isSell, buy] using sell
          simp [abs_of_neg negative]
        | false => simp
    rw [List.map_cons, List.sum_cons, ih, here, List.filter_cons]
    split
    · rw [List.map_cons, List.sum_cons]
    · exact zero_add _

theorem exchanged_volume : ((swaps.map exchangeAmounts).map fun swap => buyVolume swap + sellVolume swap).sum =
    ((swaps.filter paysOut).map fun swap => |swap.amount0.getD 0|).sum := by
  rw [volume_eq, List.filter_map, List.map_map]
  have same : paysOut ∘ exchangeAmounts = paysOut := funext paysOut_exchange
  rw [same]
  rfl

theorem countP_isBuy : swaps.countP isBuy = swaps.countP onlyFirstOut + swaps.countP fun swap => isBuy swap && isBuy (exchangeAmounts swap) := by
  induction swaps with
  | nil => rfl
  | cons swap rest ih =>
    simp only [List.countP_cons, ih]
    unfold onlyFirstOut
    cases isBuy swap <;> cases isBuy (exchangeAmounts swap) <;> simp <;> omega

theorem counts_exchange : (swaps.map exchangeAmounts).countP isSell = swaps.countP onlyFirstOut ∧
    (swaps.map exchangeAmounts).countP isBuy = swaps.countP isSell + swaps.countP fun swap => isBuy swap && isBuy (exchangeAmounts swap) := by
  constructor
  · rw [List.countP_map]
    exact List.countP_congr fun swap _ => by rw [Function.comp_apply, isSell_exchange]
  · rw [countP_isBuy, List.countP_map, List.countP_map]
    congr 1
    · exact List.countP_congr fun swap _ => by rw [Function.comp_apply, ← isSell_exchange, exchangeAmounts_exchange]
    · exact List.countP_congr fun swap _ => by rw [Function.comp_apply, exchangeAmounts_exchange, Bool.and_comm]

theorem idle_iff : ((swaps.filter fun swap => ¬ paysOut swap = true).map fun swap => |usdgAmount tune pool swap|).sum = 0 ↔
    ∀ swap ∈ swaps, paysOut swap = false → usdgAmount tune pool swap = 0 := by
  constructor
  · intro none' swap member idle
    have nonneg : ∀ size ∈ (swaps.filter fun swap => ¬ paysOut swap = true).map fun swap => |usdgAmount tune pool swap|, 0 ≤ size := by
      intro size inside
      obtain ⟨swap, _, rfl⟩ := List.mem_map.mp inside
      exact abs_nonneg _
    have inside : swap ∈ swaps.filter fun swap => ¬ paysOut swap = true := List.mem_filter.mpr ⟨member, by simp [idle]⟩
    exact abs_eq_zero.mp (List.all_zero_of_le_zero_le_of_sum_eq_zero nonneg none' (List.mem_map_of_mem inside))
  · intro idle
    apply List.sum_eq_zero
    intro size inside
    obtain ⟨swap, member, rfl⟩ := List.mem_map.mp inside
    obtain ⟨present, quiet⟩ := List.mem_filter.mp member
    exact abs_eq_zero.mpr (idle swap present (by simpa using quiet))

theorem usdg_legs (legs : ((swaps.filter paysOut).map fun swap => |swap.amount0.getD 0|).sum = ((swaps.filter paysOut).map fun swap => |swap.amount1.getD 0|).sum) :
    ((swaps.filter paysOut).map fun swap => |usdgAmount tune pool swap|).sum = ((swaps.filter paysOut).map fun swap => |swap.amount1.getD 0|).sum := by
  unfold usdgAmount
  by_cases second : pool.token1 = some tune.usdg
  · simp only [if_pos second]
  · simp only [if_neg second]
    exact legs

/-- The row is in USDG in either token order exactly where the swaps are symmetric. -/
theorem oriented_iff (quoted : provenQuoteUsdg tune pool = true) : Oriented tune pool m swaps complete ↔ Symmetric tune pool swaps := by
  have exchangedQuoted : provenQuoteUsdg tune (exchangeTokens pool) = true := by
    unfold provenQuoteUsdg exchangeTokens at *
    dsimp only
    simpa only [Bool.or_comm] using quoted
  have volume : (minuteRow tune pool m swaps complete).volQuote = some ((swaps.filter paysOut).map fun swap => |swap.amount1.getD 0|).sum := by
    unfold minuteRow minuteBucket
    dsimp only
    rw [quoted, if_pos rfl, foldl_addSwap, ← volume_eq]
    exact congrArg some (zero_add _)
  have exchangedVolume : (minuteRow tune (exchangeTokens pool) m (swaps.map exchangeAmounts) complete).volQuote =
      some ((swaps.filter paysOut).map fun swap => |swap.amount0.getD 0|).sum := by
    unfold minuteRow minuteBucket
    dsimp only
    rw [exchangedQuoted, if_pos rfl, foldl_addSwap, ← exchanged_volume]
    exact congrArg some (zero_add _)
  have total := List.sum_map_filter_add_sum_map_filter_not (fun swap => paysOut swap = true) (fun swap => |usdgAmount tune pool swap|) swaps
  rw [show (fun swap => decide (paysOut swap = true)) = paysOut from funext fun _ => Bool.decide_eq_true] at total
  obtain ⟨soldExchanged, boughtExchanged⟩ := @counts_exchange swaps
  constructor
  · intro oriented
    have legs := Option.some.inj (exchangedVolume.symm.trans (oriented.exchanged.trans volume))
    have whole := Option.some.inj (volume.symm.trans oriented.volume)
    refine ⟨?_, legs, idle_iff.mp ?_⟩
    · have sells := oriented.sells
      unfold minuteRow minuteBucket at sells
      by_cases none' : swaps = []
      · rw [none']
        rfl
      · simp only [List.map_eq_nil_iff, if_neg none', foldl_addSwap, MinuteSums.zero, Option.some.injEq] at sells
        omega
    · have pays := @usdg_legs tune pool swaps legs
      omega
  · intro symmetric
    refine ⟨?_, ?_, exchangedVolume.trans (symmetric.legs ▸ volume.symm), ?_, ?_⟩
    · rw [volume, ← total, idle_iff.mpr symmetric.idle, usdg_legs symmetric.legs, add_zero]
    · refine ⟨(swaps.map buyVolume).sum, (swaps.map sellVolume).sum, ?_, ?_, ?_⟩
      · unfold minuteRow minuteBucket
        dsimp only
        rw [quoted, if_pos rfl, foldl_addSwap]
        exact congrArg some (zero_add _)
      · unfold minuteRow minuteBucket
        dsimp only
        rw [quoted, if_pos rfl, foldl_addSwap]
        exact congrArg some (zero_add _)
      · rw [volume, ← volume_eq, List.sum_map_add]
    · unfold minuteRow minuteBucket
      have same := symmetric.counts
      have bought := @countP_isBuy swaps
      simp only [List.map_eq_nil_iff, foldl_addSwap, MinuteSums.zero]
      split
      · rfl
      · rw [boughtExchanged, bought, same]
    · unfold minuteRow minuteBucket
      have same := symmetric.counts
      simp only [List.map_eq_nil_iff, foldl_addSwap, MinuteSums.zero]
      split
      · rfl
      · rw [soldExchanged, same]

def sampleSwap (amount0 amount1 : ℤ) : Payload := ⟨none, none, none, some amount0, some amount1, none⟩

/-- A buy and a sell of the same five against six. -/
theorem oriented_iff_round_trip : Oriented sampleTune (samplePool 7) 60 [sampleSwap (-5) 6, sampleSwap 6 (-5)] true :=
  (oriented_iff (by decide)).mpr ⟨by decide, by decide, by decide⟩

/-- USDG is token 0 of the pool: three of it are paid out for seven of the base, and the volume is seven. -/
theorem volume_of_base :
    provenQuoteUsdg sampleTune (exchangeTokens (samplePool 7)) = true ∧ usdgAmount sampleTune (exchangeTokens (samplePool 7)) (sampleSwap (-3) 7) = -3 ∧
      (minuteRow sampleTune (exchangeTokens (samplePool 7)) 60 [sampleSwap (-3) 7] true).volQuote = some 7 ∧
      ¬ Oriented sampleTune (exchangeTokens (samplePool 7)) 60 [sampleSwap (-3) 7] true := by
  refine ⟨by decide, by decide, by decide, fun oriented => ?_⟩
  exact absurd oriented.volume (by decide)

end LpTerminal.Emerging.Minutes
