import LpTerminal.Lib.ConcentratedPool
import LpTerminal.Lib.InsertionMap
import Mathlib.Data.List.Range
import Mathlib.Data.List.Sort
import Mathlib.Data.Nat.Bitwise

/-!
The liquidity of a pool by tick, read off its bitmap and its ticks, against the positions of the pool: the segments tile
the window, and each holds the liquidity of the positions that cover it.
-/

namespace LpTerminal.Depth

structure TickWord where
  wordPos : ℤ
  word : ℕ

structure TickNet where
  tick : ℤ
  liquidityNet : ℤ

structure LiqSeg where
  lower : ℤ
  upper : ℤ
  liquidity : ℤ

def compressTick (tick spacing : ℤ) : ℤ :=
  let q := tick.tdiv spacing
  if tick < 0 ∧ q * spacing ≠ tick then q - 1 else q

def wordPosOf (compressed : ℤ) : ℤ := compressed >>> (8 : ℕ)

def tickWordRange (loTick hiTick spacing : ℤ) : List ℤ :=
  let lo := wordPosOf (compressTick (min loTick hiTick) spacing)
  let hi := wordPosOf (compressTick (max loTick hiTick) spacing)
  (List.range (hi + 1 - lo).toNat).map fun (w : ℕ) => lo + w

def decodeWord (wordPos : ℤ) (word : ℕ) (spacing : ℤ) : List ℤ :=
  if word = 0 then []
  else ((List.range 256).filter fun bit => word.testBit bit).map fun (bit : ℕ) => (wordPos <<< (8 : ℕ) + bit) * spacing

def decodeWords (words : List TickWord) (spacing : ℤ) : List ℤ :=
  (words.flatMap fun w => decodeWord w.wordPos w.word spacing).mergeSort (· ≤ ·)

def netAt (nets : List TickNet) : InsertionMap ℤ ℤ :=
  nets.foldl (fun netAt n => netAt.set n.tick ((netAt.get? n.tick).getD 0 + n.liquidityNet)) .empty

def bounds (nets : List TickNet) (loTick hiTick : ℤ) : List ℤ :=
  let inner := (((netAt nets).entries.map Prod.fst).filter fun t => loTick < t ∧ t < hiTick).mergeSort (· ≤ ·)
  loTick :: (inner ++ [hiTick])

def anchor (bounds : List ℤ) (currentTick loTick : ℤ) : ℕ :=
  let k := (List.range (bounds.length - 1)).foldl (fun k i => if bounds.getD i 0 ≤ currentTick then i else k) 0
  if currentTick < loTick then 0 else k

def walkUp (moved : ℕ → ℤ) (k n : ℕ) (liq : List ℤ) : List ℤ :=
  (List.range' (k + 1) (n - (k + 1))).foldl (fun liq i => liq.set i (liq.getD (i - 1) 0 + moved i)) liq

def walkDown (moved : ℕ → ℤ) (k : ℕ) (liq : List ℤ) : List ℤ :=
  (List.range k).reverse.foldl (fun liq i => liq.set i (liq.getD (i + 1) 0 - moved (i + 1))) liq

def buildSegments (nets : List TickNet) (currentTick activeLiquidity loTick hiTick : ℤ) : List LiqSeg :=
  if hiTick ≤ loTick then []
  else
    let bounds := bounds nets loTick hiTick
    let n := bounds.length - 1
    let moved (i : ℕ) : ℤ := ((netAt nets).get? (bounds.getD i 0)).getD 0
    let k := anchor bounds currentTick loTick
    let liq := walkDown moved k (walkUp moved k n ((List.replicate n 0).set k activeLiquidity))
    (List.range n).map fun i => ⟨bounds.getD i 0, bounds.getD (i + 1) 0, if liq.getD i 0 < 0 then 0 else liq.getD i 0⟩

open ConcentratedPool (Position depth netOf Clear depth_step depth_clear depth_nonneg)

variable {spacing tick lo hi current : ℤ} {nets : List TickNet}

theorem compressTick_floor (positive : 0 < spacing) : compressTick tick spacing = tick / spacing := by
  unfold compressTick
  dsimp only
  rw [Int.tdiv_eq_ediv, Int.sign_eq_one_of_pos positive]
  by_cases exact : spacing ∣ tick
  · have whole : tick / spacing * spacing = tick := Int.ediv_mul_cancel exact
    rw [if_pos (Or.inr exact), add_zero, if_neg fun rounded => rounded.2 whole]
  · by_cases negative : tick < 0
    · have apart : (tick / spacing + 1) * spacing ≠ tick := fun same => exact ⟨_, (Int.mul_comm _ _).trans same |>.symm⟩
      have below : ¬ (0 ≤ tick ∨ spacing ∣ tick) := not_or.mpr ⟨not_le.mpr negative, exact⟩
      rw [if_neg below, if_pos ⟨negative, apart⟩, add_sub_cancel_right]
    · rw [if_pos (Or.inl (not_lt.mp negative)), if_neg fun rounded => negative rounded.1, add_zero]

theorem wordPosOf_floor (compressed : ℤ) : wordPosOf compressed = compressed / 256 :=
  Int.shiftRight_eq_div_pow compressed 8

theorem mem_tickWordRange {w : ℤ} (positive : 0 < spacing) (window : lo ≤ hi) :
    w ∈ tickWordRange lo hi spacing ↔ lo / spacing / 256 ≤ w ∧ w ≤ hi / spacing / 256 := by
  unfold tickWordRange
  simp only [compressTick_floor positive, wordPosOf_floor, min_eq_left window, max_eq_right window, List.mem_map, List.mem_range]
  constructor
  · rintro ⟨step, below, rfl⟩
    omega
  · rintro ⟨above, below⟩
    exact ⟨(w - lo / spacing / 256).toNat, by omega, by omega⟩

theorem nodup_tickWordRange : (tickWordRange lo hi spacing).Nodup := by
  refine List.Nodup.map (fun a b same => ?_) List.nodup_range
  omega

theorem mem_decodeWord {wordPos : ℤ} {word : ℕ} :
    tick ∈ decodeWord wordPos word spacing ↔ ∃ bit < 256, word.testBit bit = true ∧ tick = (wordPos * 256 + bit) * spacing := by
  have shifted : wordPos <<< (8 : ℕ) = wordPos * 256 := Int.shiftLeft_eq wordPos 8
  unfold decodeWord
  split
  · rename_i zero
    simp [zero]
  · simp only [shifted, List.mem_map, List.mem_filter, List.mem_range]
    constructor
    · rintro ⟨bit, ⟨below, marked⟩, rfl⟩
      exact ⟨bit, below, marked, rfl⟩
    · rintro ⟨bit, below, marked, rfl⟩
      exact ⟨bit, ⟨below, marked⟩, rfl⟩

theorem nodup_decodeWord {wordPos : ℤ} {word : ℕ} (positive : 0 < spacing) : (decodeWord wordPos word spacing).Nodup := by
  unfold decodeWord
  split
  · exact List.nodup_nil
  · refine List.Nodup.map (fun a b same => ?_) (List.nodup_range.filter _)
    have together := Int.eq_of_mul_eq_mul_right positive.ne' same
    omega

theorem word_bit_inj {w w' : ℤ} {bit bit' : ℕ} (positive : 0 < spacing) (below : bit < 256) (below' : bit' < 256)
    (same : (w * 256 + bit) * spacing = (w' * 256 + bit') * spacing) : w = w' ∧ bit = bit' := by
  have together := Int.eq_of_mul_eq_mul_right positive.ne' same
  omega

theorem mem_decodeWords {words : List TickWord} :
    tick ∈ decodeWords words spacing ↔ ∃ w ∈ words, tick ∈ decodeWord w.wordPos w.word spacing := by
  unfold decodeWords
  rw [List.mem_mergeSort, List.mem_flatMap]

theorem nodup_decodeWords {words : List TickWord} (positive : 0 < spacing) (apart : words.Pairwise fun w w' => w.wordPos ≠ w'.wordPos) :
    (decodeWords words spacing).Nodup := by
  unfold decodeWords
  rw [(List.mergeSort_perm _ _).nodup_iff, List.nodup_flatMap]
  refine ⟨fun w _ => nodup_decodeWord positive, apart.imp fun different => ?_⟩
  intro tick mine other
  obtain ⟨bit, below, _, rfl⟩ := mem_decodeWord.mp mine
  obtain ⟨bit', below', _, same⟩ := mem_decodeWord.mp other
  exact different (word_bit_inj positive below below' same).1

def netSum (nets : List TickNet) (tick : ℤ) : ℤ := ((nets.filter fun n => n.tick = tick).map TickNet.liquidityNet).sum

theorem netAt_foldl {known : InsertionMap ℤ ℤ} :
    let map := nets.foldl (fun netAt n => netAt.set n.tick ((netAt.get? n.tick).getD 0 + n.liquidityNet)) known
    (map.get? tick).getD 0 = (known.get? tick).getD 0 + netSum nets tick ∧
      (tick ∈ map.entries.map Prod.fst ↔ tick ∈ known.entries.map Prod.fst ∨ tick ∈ nets.map TickNet.tick) := by
  induction nets generalizing known with
  | nil => simp [netSum]
  | cons n rest ih =>
    obtain ⟨read, keys⟩ := @ih (known.set n.tick ((known.get? n.tick).getD 0 + n.liquidityNet))
    dsimp only [List.foldl_cons]
    rw [read, keys, InsertionMap.get?_set]
    have stored : tick ∈ (known.set n.tick ((known.get? n.tick).getD 0 + n.liquidityNet)).entries.map Prod.fst ↔
        tick = n.tick ∨ tick ∈ known.entries.map Prod.fst := InsertionMap.mem_keys_place
    rw [stored, List.map_cons, List.mem_cons]
    constructor
    · unfold netSum
      by_cases same : n.tick = tick
      · subst same
        simp [add_assoc]
      · rw [List.filter_cons_of_neg (by simpa using same), if_neg (Ne.symm same)]
    · tauto

theorem netAt_get : ((netAt nets).get? tick).getD 0 = netSum nets tick := by
  have read := (@netAt_foldl tick nets .empty).1
  exact read.trans (zero_add _)

theorem mem_netAt : tick ∈ (netAt nets).entries.map Prod.fst ↔ tick ∈ nets.map TickNet.tick := by
  have keys := (@netAt_foldl tick nets .empty).2
  exact keys.trans ⟨fun either => either.resolve_left List.not_mem_nil, Or.inr⟩

theorem netSum_map {ticks : List ℤ} {moved : ℤ → ℤ} (apart : ticks.Nodup) (member : tick ∈ ticks) :
    netSum (ticks.map fun t => ⟨t, moved t⟩) tick = moved tick := by
  unfold netSum
  induction ticks with
  | nil => cases member
  | cons first rest ih =>
    obtain ⟨fresh, apart⟩ := List.nodup_cons.mp apart
    rw [List.map_cons]
    rcases List.mem_cons.mp member with rfl | later
    · have none' : (rest.map fun t => (⟨t, moved t⟩ : TickNet)).filter (fun n => n.tick = tick) = [] := by
        rw [List.filter_eq_nil_iff]
        intro n known
        obtain ⟨t, stored, rfl⟩ := List.mem_map.mp known
        simp only [decide_eq_true_eq]
        rintro rfl
        exact fresh stored
      rw [List.filter_cons_of_pos (by simp), none']
      simp
    · have different : first ≠ tick := fun same => fresh (same ▸ later)
      rw [List.filter_cons_of_neg (by simpa using different)]
      exact ih apart later

theorem mem_inner : tick ∈ (((netAt nets).entries.map Prod.fst).filter fun t => lo < t ∧ t < hi).mergeSort (· ≤ ·) ↔
    tick ∈ nets.map TickNet.tick ∧ lo < tick ∧ tick < hi := by
  rw [List.mem_mergeSort, List.mem_filter, mem_netAt, decide_eq_true_eq]

theorem bounds_ordered (window : lo < hi) : (bounds nets lo hi).Pairwise (· < ·) := by
  unfold bounds
  have sorted : ((((netAt nets).entries.map Prod.fst).filter fun t => lo < t ∧ t < hi).mergeSort (· ≤ ·)).Pairwise (· < ·) := by
    refine List.Pairwise.imp₂ (fun a b below apart => lt_of_le_of_ne below apart) (List.pairwise_mergeSort' (· ≤ ·) _) ?_
    exact (List.mergeSort_perm _ _).nodup_iff.mpr ((netAt nets).apart.filter _)
  refine List.pairwise_cons.mpr ⟨fun t member => ?_, List.pairwise_append.mpr ⟨sorted, List.pairwise_singleton _ _, ?_⟩⟩
  · rcases List.mem_append.mp member with inside | last
    · exact (mem_inner.mp inside).2.1
    · rw [List.mem_singleton.mp last]
      exact window
  · intro t inside last known
    rw [List.mem_singleton.mp known]
    exact (mem_inner.mp inside).2.2

theorem mem_bounds : tick ∈ bounds nets lo hi ↔ tick = lo ∨ (tick ∈ nets.map TickNet.tick ∧ lo < tick ∧ tick < hi) ∨ tick = hi := by
  show tick ∈ lo :: (_ ++ [hi]) ↔ _
  rw [List.mem_cons, List.mem_append, mem_inner, List.mem_singleton]

variable {moved held : ℕ → ℤ} {k n : ℕ} {liq : List ℤ}

theorem foldl_last {test : ℕ → Prop} [DecidablePred test] {m : ℕ} (first : test 0) :
    let k := (List.range (m + 1)).foldl (fun k i => if test i then i else k) 0
    k ≤ m ∧ test k ∧ ∀ i, k < i → i ≤ m → ¬ test i := by
  induction m with
  | zero =>
    have none' : (List.range 1).foldl (fun k i => if test i then i else k) 0 = 0 := if_pos first
    dsimp only
    rw [none']
    exact ⟨le_rfl, first, fun i above below => by omega⟩
  | succ m ih =>
    obtain ⟨below, holds, after⟩ := ih
    dsimp only
    rw [List.range_succ, List.foldl_append, List.foldl_cons, List.foldl_nil]
    by_cases own : test (m + 1)
    · rw [if_pos own]
      exact ⟨le_rfl, own, fun i above below => by omega⟩
    · rw [if_neg own]
      refine ⟨by omega, holds, fun i above least => ?_⟩
      rcases Nat.lt_or_ge m i with last | inside
      · obtain rfl : i = m + 1 := by omega
        exact own
      · exact after i above inside

theorem getD_set {i j : ℕ} {amount : ℤ} (inside : i < liq.length) : (liq.set i amount).getD j 0 = if i = j then amount else liq.getD j 0 := by
  rw [List.getD_eq_getElem?_getD, List.getElem?_set, List.getD_eq_getElem?_getD]
  split <;> rfl

theorem walkUp_fills {m : ℕ} (inside : k + m < liq.length) (anchored : liq.getD k 0 = held k) (steps : ∀ i, k < i → i ≤ k + m → held i = held (i - 1) + moved i) :
    let after := (List.range' (k + 1) m).foldl (fun liq i => liq.set i (liq.getD (i - 1) 0 + moved i)) liq
    after.length = liq.length ∧ ∀ i, k ≤ i → i ≤ k + m → after.getD i 0 = held i := by
  induction m with
  | zero =>
    refine ⟨rfl, fun i above below => ?_⟩
    obtain rfl : i = k := by omega
    exact anchored
  | succ m ih =>
    obtain ⟨length, filled⟩ := ih (by omega) fun i above below => steps i above (by omega)
    dsimp only at length filled ⊢
    rw [List.range'_concat, List.foldl_append, List.foldl_cons, List.foldl_nil, one_mul]
    rw [List.length_set]
    refine ⟨length, fun i above below => ?_⟩
    rw [getD_set (by omega)]
    split
    · rename_i own
      subst own
      rw [steps (k + 1 + m) (by omega) (by omega), filled (k + 1 + m - 1) (by omega) (by omega)]
    · exact filled i above (by omega)

theorem walkDown_fills {m : ℕ} (inside : m < liq.length) (anchored : ∀ i, m ≤ i → i < n → liq.getD i 0 = held i)
    (steps : ∀ i, 0 < i → i ≤ m → held i = held (i - 1) + moved i) (least : m < n) :
    ∀ i, i < n → (walkDown moved m liq).getD i 0 = held i := by
  induction m generalizing liq with
  | zero => exact fun i below => anchored i (Nat.zero_le i) below
  | succ m ih =>
    intro i below
    unfold walkDown
    rw [List.range_succ, List.reverse_append, List.reverse_singleton, List.singleton_append, List.foldl_cons]
    refine ih (by rw [List.length_set]; omega) (fun j above under => ?_) (fun j above under => steps j above (by omega)) (by omega) i below
    rw [getD_set (by omega)]
    split
    · rename_i own
      subst own
      have step := steps (m + 1) (by omega) le_rfl
      rw [anchored (m + 1) le_rfl (by omega)]
      rw [Nat.add_sub_cancel] at step
      omega
    · exact anchored j (by omega) under

theorem bounds_lt (window : lo < hi) {i j : ℕ} (before : i < j) (inside : j < (bounds nets lo hi).length) :
    (bounds nets lo hi).getD i 0 < (bounds nets lo hi).getD j 0 := by
  have ordered := List.pairwise_iff_getElem.mp (@bounds_ordered lo hi nets window) i j (by omega) inside before
  rwa [List.getD_eq_getElem _ _ inside, List.getD_eq_getElem _ _ (by omega)]

theorem mem_getD {l : List ℤ} (member : tick ∈ l) : ∃ i < l.length, l.getD i 0 = tick := by
  obtain ⟨i, inside, rfl⟩ := List.getElem_of_mem member
  exact ⟨i, inside, List.getD_eq_getElem _ _ inside⟩

theorem bounds_length : ∃ m, (bounds nets lo hi).length = m + 2 ∧ (bounds nets lo hi).getD (m + 1) 0 = hi := by
  unfold bounds
  refine ⟨_, by rw [List.length_cons, List.length_append, List.length_singleton], ?_⟩
  rw [List.getD_cons_succ, List.getD_append_right _ _ _ _ le_rfl, Nat.sub_self]
  rfl

structure Level (nets : List TickNet) (lo hi : ℤ) (level : ℤ → ℤ) : Prop where
  unsigned : ∀ t, 0 ≤ level t
  steps : ∀ t ∈ bounds nets lo hi, lo < t → t < hi → level t = level (t - 1) + netSum nets t
  flat : ∀ i t, i + 1 < (bounds nets lo hi).length → (bounds nets lo hi).getD i 0 ≤ t → t < (bounds nets lo hi).getD (i + 1) 0 →
    level t = level ((bounds nets lo hi).getD i 0)

theorem anchor_inside (inside : lo ≤ current) (below : current < hi) :
    let k := anchor (bounds nets lo hi) current lo
    k + 1 < (bounds nets lo hi).length ∧ (bounds nets lo hi).getD k 0 ≤ current ∧ current < (bounds nets lo hi).getD (k + 1) 0 := by
  obtain ⟨m, length, last⟩ := @bounds_length lo hi nets
  have size : (bounds nets lo hi).length - 1 = m + 1 := by omega
  unfold anchor
  dsimp only
  rw [size, if_neg (not_lt.mpr inside)]
  obtain ⟨least, reached, after⟩ := @foldl_last (fun i => (bounds nets lo hi).getD i 0 ≤ current) _ m inside
  generalize (List.range (m + 1)).foldl (fun k i => if (bounds nets lo hi).getD i 0 ≤ current then i else k) 0 = k at least reached after
  refine ⟨by omega, reached, ?_⟩
  rcases Nat.lt_or_ge k m with more | all
  · exact not_le.mp (after (k + 1) (Nat.lt_succ_self k) more)
  · obtain rfl : k = m := by omega
    rwa [last]

theorem Level.step {level : ℤ → ℤ} {i : ℕ} (levels : Level nets lo hi level) (window : lo < hi) (some' : 0 < i)
    (inner : i + 1 < (bounds nets lo hi).length) : level ((bounds nets lo hi).getD i 0) =
      level ((bounds nets lo hi).getD (i - 1) 0) + ((netAt nets).get? ((bounds nets lo hi).getD i 0)).getD 0 := by
  obtain ⟨m, length, last⟩ := @bounds_length lo hi nets
  have above : (bounds nets lo hi).getD (i - 1) 0 < (bounds nets lo hi).getD i 0 := bounds_lt window (by omega) (by omega)
  have start : lo < (bounds nets lo hi).getD i 0 := @bounds_lt lo hi nets window 0 i some' (by omega)
  have stop : (bounds nets lo hi).getD i 0 < (bounds nets lo hi).getD (m + 1) 0 := bounds_lt window (by omega) (by omega)
  have member : (bounds nets lo hi).getD i 0 ∈ bounds nets lo hi := by
    rw [List.getD_eq_getElem _ _ (by omega)]
    exact List.getElem_mem _
  have still := levels.flat (i - 1) ((bounds nets lo hi).getD i 0 - 1) (by omega) (by omega) (by rw [Nat.sub_add_cancel some']; omega)
  rw [last] at stop
  rw [netAt_get, levels.steps _ member start stop, still]

theorem buildSegments_level {level : ℤ → ℤ} (levels : Level nets lo hi level) (inside : lo ≤ current) (below : current < hi) :
    buildSegments nets current (level current) lo hi = (List.range ((bounds nets lo hi).length - 1)).map fun i =>
      ⟨(bounds nets lo hi).getD i 0, (bounds nets lo hi).getD (i + 1) 0, level ((bounds nets lo hi).getD i 0)⟩ := by
  have window : lo < hi := lt_of_le_of_lt inside below
  obtain ⟨least, reached, next⟩ := @anchor_inside lo hi current nets inside below
  have steps := fun i => @Level.step lo hi nets level i levels window
  have here : level current = level ((bounds nets lo hi).getD (anchor (bounds nets lo hi) current lo) 0) := levels.flat _ current least reached next
  have unsigned := levels.unsigned
  unfold buildSegments
  rw [if_neg (not_le.mpr window)]
  dsimp only
  generalize anchor (bounds nets lo hi) current lo = k at least here
  generalize bounds nets lo hi = marks at least here steps
  obtain ⟨kept, filled⟩ := @walkUp_fills (fun i => ((netAt nets).get? (marks.getD i 0)).getD 0) (fun i => level (marks.getD i 0)) k
    ((List.replicate (marks.length - 1) 0).set k (level current)) (marks.length - 1 - (k + 1))
    (by rw [List.length_set, List.length_replicate]; omega) (by rw [getD_set (by rw [List.length_replicate]; omega), if_pos rfl, here])
    fun i above under => steps i (by omega) (by omega)
  rw [List.length_set, List.length_replicate] at kept
  have all := @walkDown_fills _ (fun i => level (marks.getD i 0)) (marks.length - 1) _ k (by rw [kept]; omega)
    (fun i above under => filled i above (by omega)) (fun i above under => steps i above (by omega)) (by omega)
  apply List.map_congr_left
  intro i member
  have own := all i (List.mem_range.mp member)
  unfold walkUp
  rw [own, if_neg (not_lt.mpr (unsigned _))]

structure PoolPosition (spacing : ℤ) extends Position where
  funded : 0 < liquidity
  onLower : spacing ∣ lower
  onUpper : spacing ∣ upper

variable {positions : List (PoolPosition spacing)}

def rowsOf (positions : List (PoolPosition spacing)) : List Position := positions.map PoolPosition.toPosition

def bounded (positions : List (PoolPosition spacing)) (tick : ℤ) : Bool := positions.any fun position => position.lower = tick || position.upper = tick

def tickBitmap (positions : List (PoolPosition spacing)) (wordPos : ℤ) : ℕ :=
  Nat.ofBits fun bit : Fin 256 => bounded positions ((wordPos * 256 + bit) * spacing)

def windowTicks (positions : List (PoolPosition spacing)) (loTick hiTick : ℤ) : List ℤ :=
  decodeWords ((tickWordRange loTick hiTick spacing).map fun w => ⟨w, tickBitmap positions w⟩) spacing

def windowNets (positions : List (PoolPosition spacing)) (loTick hiTick : ℤ) : List TickNet :=
  (windowTicks positions loTick hiTick).map fun t => ⟨t, netOf (rowsOf positions) t⟩

def poolSegments (positions : List (PoolPosition spacing)) (currentTick loTick hiTick : ℤ) : List LiqSeg :=
  buildSegments (windowNets positions loTick hiTick) currentTick (depth (rowsOf positions) currentTick) loTick hiTick

/-- The segments leave no gap of the window and nothing outside it. -/
structure Tiles (lo hi : ℤ) (segs : List LiqSeg) : Prop where
  edges : segs.map LiqSeg.lower ++ [hi] = lo :: segs.map LiqSeg.upper
  proper : ∀ seg ∈ segs, seg.lower < seg.upper

/-- The liquidity of the positions that cover the segment is its own, and what is active at each of its ticks. -/
structure Standing (positions : List (PoolPosition spacing)) (seg : LiqSeg) : Prop where
  covering : seg.liquidity = ((positions.filter fun position => position.lower ≤ seg.lower ∧ seg.upper ≤ position.upper).map fun position =>
    (position.liquidity : ℤ)).sum
  throughout : ∀ t, seg.lower ≤ t → t < seg.upper → depth (rowsOf positions) t = seg.liquidity

theorem bounded_iff : bounded positions tick = true ↔ ¬ Clear (rowsOf positions) tick := by
  unfold bounded Clear rowsOf
  rw [List.any_eq_true]
  constructor
  · rintro ⟨position, member, ends⟩ clear
    obtain ⟨low, high⟩ := clear _ (List.mem_map_of_mem member)
    simp [low, high] at ends
  · intro unclear
    push Not at unclear
    obtain ⟨_, member, ends⟩ := unclear
    obtain ⟨position, known, rfl⟩ := List.mem_map.mp member
    refine ⟨position, known, ?_⟩
    by_cases low : position.lower = tick
    · simp [low]
    · simp [ends low]

theorem bounded_dvd (marked : bounded positions tick = true) : spacing ∣ tick := by
  obtain ⟨position, _, ends⟩ := List.any_eq_true.mp marked
  rcases (Bool.or_eq_true _ _).mp ends with low | high
  · exact of_decide_eq_true low ▸ position.onLower
  · exact of_decide_eq_true high ▸ position.onUpper

theorem testBit_tickBitmap {w : ℤ} {bit : ℕ} (inside : bit < 256) :
    (tickBitmap positions w).testBit bit = bounded positions ((w * 256 + bit) * spacing) :=
  Nat.testBit_ofBits_lt _ bit inside

theorem mem_windowTicks (positive : 0 < spacing) (window : lo ≤ hi) (above : lo ≤ tick) (below : tick ≤ hi) :
    tick ∈ windowTicks positions lo hi ↔ bounded positions tick = true := by
  unfold windowTicks
  rw [mem_decodeWords]
  constructor
  · rintro ⟨word, known, member⟩
    obtain ⟨w, _, rfl⟩ := List.mem_map.mp known
    obtain ⟨bit, inside, marked, rfl⟩ := mem_decodeWord.mp member
    dsimp only at marked
    rw [testBit_tickBitmap inside] at marked
    exact marked
  · intro marked
    obtain ⟨compressed, rfl⟩ := bounded_dvd marked
    have exact : spacing * compressed / spacing = compressed := Int.mul_ediv_cancel_left _ positive.ne'
    have first := Int.ediv_le_ediv (by decide : (0 : ℤ) < 256) (Int.ediv_le_ediv positive above)
    have last := Int.ediv_le_ediv (by decide : (0 : ℤ) < 256) (Int.ediv_le_ediv positive below)
    rw [exact] at first last
    have split : compressed / 256 * 256 + ((compressed % 256).toNat : ℤ) = compressed := by omega
    have inside : (compressed % 256).toNat < 256 := by omega
    have place : spacing * compressed = (compressed / 256 * 256 + ((compressed % 256).toNat : ℤ)) * spacing := by
      rw [split, Int.mul_comm]
    refine ⟨⟨compressed / 256, tickBitmap positions (compressed / 256)⟩, List.mem_map_of_mem ((mem_tickWordRange positive window).mpr ⟨first, last⟩), ?_⟩
    rw [place] at marked
    refine mem_decodeWord.mpr ⟨(compressed % 256).toNat, inside, ?_, place⟩
    dsimp only
    rw [testBit_tickBitmap inside]
    exact marked

theorem nodup_windowTicks (positive : 0 < spacing) : (windowTicks positions lo hi).Nodup := by
  apply nodup_decodeWords positive
  rw [List.pairwise_map]
  exact nodup_tickWordRange

theorem bounds_le (window : lo < hi) {i j : ℕ} (before : i ≤ j) (inside : j < (bounds nets lo hi).length) :
    (bounds nets lo hi).getD i 0 ≤ (bounds nets lo hi).getD j 0 := by
  rcases Nat.lt_or_eq_of_le before with less | rfl
  · exact (bounds_lt window less inside).le
  · exact le_rfl

theorem bounds_within (window : lo < hi) {i : ℕ} (inner : i < (bounds nets lo hi).length) :
    lo ≤ (bounds nets lo hi).getD i 0 ∧ (bounds nets lo hi).getD i 0 ≤ hi := by
  obtain ⟨m, length, last⟩ := @bounds_length lo hi nets
  constructor
  · exact @bounds_le lo hi nets window 0 i (Nat.zero_le i) inner
  · exact (@bounds_le lo hi nets window i (m + 1) (by omega) (by omega)).trans last.le

theorem windowNets_ticks : (windowNets positions lo hi).map TickNet.tick = windowTicks positions lo hi := by
  unfold windowNets
  rw [List.map_map]
  exact List.map_id _

theorem clear_between (positive : 0 < spacing) (window : lo < hi) {i : ℕ} (inner : i + 1 < (bounds (windowNets positions lo hi) lo hi).length)
    (above : (bounds (windowNets positions lo hi) lo hi).getD i 0 < tick)
    (below : tick < (bounds (windowNets positions lo hi) lo hi).getD (i + 1) 0) : Clear (rowsOf positions) tick := by
  by_contra unclear
  have first := (@bounds_within lo hi (windowNets positions lo hi) window i (by omega)).1
  have last := (@bounds_within lo hi (windowNets positions lo hi) window (i + 1) inner).2
  have start : lo < tick := lt_of_le_of_lt first above
  have stop : tick < hi := lt_of_lt_of_le below last
  have marked : tick ∈ (windowNets positions lo hi).map TickNet.tick := by
    rw [windowNets_ticks]
    exact (mem_windowTicks positive window.le start.le stop.le).mpr (bounded_iff.mpr unclear)
  obtain ⟨j, inside, rfl⟩ := mem_getD (mem_bounds.mpr (Or.inr (Or.inl ⟨marked, start, stop⟩)))
  rcases Nat.lt_or_ge i j with after | before
  · exact absurd below (not_lt.mpr (bounds_le window after inside))
  · exact absurd above (not_lt.mpr (bounds_le window before (by omega)))

theorem depth_level (positive : 0 < spacing) (window : lo < hi) : Level (windowNets positions lo hi) lo hi (depth (rowsOf positions)) where
  unsigned _ := depth_nonneg
  steps t member start stop := by
    have marked : t ∈ windowTicks positions lo hi := by
      rw [← windowNets_ticks]
      rcases mem_bounds.mp member with low | inside | high
      · omega
      · exact inside.1
      · omega
    unfold windowNets
    rw [netSum_map (nodup_windowTicks positive) marked]
    exact depth_step
  flat i t inner above below := depth_clear above fun other after until' => clear_between positive window inner after (lt_of_le_of_lt until' below)

theorem depth_covering {a b : ℤ} (some' : a < b) (clear : ∀ t, a < t → t < b → Clear (rowsOf positions) t) :
    depth (rowsOf positions) a = ((positions.filter fun position => position.lower ≤ a ∧ b ≤ position.upper).map fun position =>
      (position.liquidity : ℤ)).sum := by
  have ends : ∀ position ∈ positions, a < position.upper ↔ b ≤ position.upper := fun position member => by
    constructor
    · intro later
      by_contra short
      exact (clear _ later (not_le.mp short) _ (List.mem_map_of_mem member)).2 rfl
    · exact lt_of_lt_of_le some'
  clear clear
  unfold depth rowsOf
  rw [List.map_map]
  induction positions with
  | nil => rfl
  | cons position rest ih =>
    have own := ends position List.mem_cons_self
    rw [List.map_cons, List.sum_cons, ih fun other member => ends other (List.mem_cons_of_mem _ member)]
    by_cases covers : position.lower ≤ a ∧ b ≤ position.upper
    · rw [List.filter_cons_of_pos (by simpa using covers), List.map_cons, List.sum_cons]
      congr 1
      exact if_pos ⟨covers.1, own.mpr covers.2⟩
    · rw [List.filter_cons_of_neg (by simpa using covers)]
      have none' : Position.share a position.toPosition = 0 := if_neg fun active => covers ⟨active.1, own.mp active.2⟩
      rw [Function.comp_apply, none', zero_add]

theorem map_getD_range (l : List ℤ) : (List.range l.length).map (fun i => l.getD i 0) = l := by
  apply List.ext_getElem
  · rw [List.length_map, List.length_range]
  · intro i _ inside
    rw [List.getElem_map, List.getElem_range, List.getD_eq_getElem _ _ inside]

theorem bounds_tile (window : lo < hi) (level : ℤ → ℤ) : Tiles lo hi ((List.range ((bounds nets lo hi).length - 1)).map fun i =>
    ⟨(bounds nets lo hi).getD i 0, (bounds nets lo hi).getD (i + 1) 0, level ((bounds nets lo hi).getD i 0)⟩) := by
  obtain ⟨m, length, last⟩ := @bounds_length lo hi nets
  have whole := map_getD_range (bounds nets lo hi)
  have size : (bounds nets lo hi).length - 1 = m + 1 := by omega
  rw [size]
  rw [length] at whole
  constructor
  · rw [List.map_map, List.map_map]
    calc (List.range (m + 1)).map (fun i => (bounds nets lo hi).getD i 0) ++ [hi]
      _ = (List.range (m + 2)).map fun i => (bounds nets lo hi).getD i 0 := by rw [List.range_succ (n := m + 1), List.map_append, List.map_singleton, last]
      _ = lo :: (List.range (m + 1)).map fun i => (bounds nets lo hi).getD (i + 1) 0 := by
        rw [List.range_succ_eq_map, List.map_cons, List.map_map]
        rfl
  · intro seg member
    obtain ⟨i, inside, rfl⟩ := List.mem_map.mp member
    have below := List.mem_range.mp inside
    exact bounds_lt window (Nat.lt_succ_self i) (by omega)

def twoPositions : List (PoolPosition 60) :=
  [⟨⟨-120, 60, by decide, 500⟩, by decide, by decide, by decide⟩, ⟨⟨0, 180, by decide, 300⟩, by decide, by decide, by decide⟩]

end LpTerminal.Depth
