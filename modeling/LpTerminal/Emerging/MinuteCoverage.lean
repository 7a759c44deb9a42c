import LpTerminal.Emerging.MinutesExact
import Mathlib.Data.List.Chain

/-!
Repeated passes over one pool: which minutes have a row, and the hours that are rolled up from them.
-/

namespace LpTerminal.Emerging.Minutes

variable {tune : AggregateTune} {pool : Discovery} {store : AggregateStore} {m floor last : ℤ}

/-- A row of `pool_history`; its candles are floats and left out. -/
structure HistoryRow where
  address : ℕ
  bucketTs : ℤ
  proto : Venue
  stateUpdated : ℕ
  intervalVolumeQuote : Option ℤ
  aggregateVersion : ℕ

def hourStart (now : ℕ) : ℤ := (now / 3600 * 3600 : ℕ) - 3600

/-- `minuteRowsQ`. -/
def hourRows (store : AggregateStore) (pool : Discovery) (hour : ℤ) : List MinuteBucket :=
  store.buckets.rows.filter fun row => row.poolKey = pool.poolKey ∧ row.complete = true ∧ hour ≤ row.minuteTs ∧ row.minuteTs < hour + 3600

/-- The row that `rollUpHour` upserts. -/
def rollUpHour (tune : AggregateTune) (now : ℕ) (store : AggregateStore) (pool : Discovery) : Option HistoryRow :=
  let rows := hourRows store pool (hourStart now)
  if rows.length < 60 then none
  else
    some { address := pool.canonicalId
           bucketTs := hourStart now
           proto := pool.venue
           stateUpdated := now
           intervalVolumeQuote := if provenQuoteUsdg tune pool then some (rows.map fun row => row.volQuote.getD 0).sum else none
           aggregateVersion := tune.aggregateVersion }

structure Call where
  completeThrough : ℕ
  now : ℕ

namespace Call

variable (call : Call) (tune : AggregateTune) (pool : Discovery) (store : AggregateStore)

def through : ℕ := min call.completeThrough call.now

def lastClosed : ℤ := minuteOf call.through - 60

def plan : PassPlan := passPlan tune pool call.completeThrough call.now store

def pass : AggregateStore := aggregatePoolMinutes tune call.completeThrough call.now store pool

end Call

def Spaced (tune : AggregateTune) : List Call → Prop :=
  List.IsChain fun earlier later => earlier.through ≤ later.through ∧ later.through ≤ earlier.through + tune.zeroBackfillHours * 3600

structure Fresh (pool : Discovery) (store : AggregateStore) : Prop where
  rows : ∀ m, store.buckets.get? (toLex (pool.poolKey, m)) = none
  watermark : store.watermarks pool.poolKey = none

def minuteSwaps (store : AggregateStore) (pool : Discovery) (m : ℤ) : List Payload :=
  (store.events.filter (inMinute pool.poolKey m)).map fun row => row.payload

def completeRow (tune : AggregateTune) (pool : Discovery) (store : AggregateStore) (m : ℤ) : MinuteBucket :=
  minuteBucket tune.aggregateVersion pool.poolKey (provenQuoteUsdg tune pool) m (minuteSwaps store pool m) true

def RowsFilled (tune : AggregateTune) (pool : Discovery) (floor last : ℤ) (store : AggregateStore) : Prop :=
  ∀ m, 60 ∣ m → floor ≤ m → m ≤ last → store.buckets.get? (toLex (pool.poolKey, m)) = some (completeRow tune pool store m)

/-- Every minute from the floor up to the last closed one has its row, and every hour among them its sixty rows. -/
structure Filled (tune : AggregateTune) (pool : Discovery) (floor last : ℤ) (store : AggregateStore) : Prop where
  rows : RowsFilled tune pool floor last store
  hours : ∀ now, floor ≤ hourStart now → hourStart now + 3600 ≤ last + 60 →
    (hourRows store pool (hourStart now)).length = 60 ∧ (rollUpHour tune now store pool).isSome

/-- A call that leaves no minute out: a closed minute without swaps and without a row lies after all swaps that the call reads, and
no closed minute with swaps lies further back than the backfill. -/
structure Steady (tune : AggregateTune) (pool : Discovery) (floor : ℤ) (store : AggregateStore) (call : Call) : Prop where
  quiet : ∀ m, 60 ∣ m → floor ≤ m → m ≤ call.lastClosed → m ∉ (call.plan tune pool store).minutes →
    store.buckets.get? (toLex (pool.poolKey, m)) = none → ∀ busy ∈ (call.plan tune pool store).minutes, busy < m
  recent : ∀ m ∈ (call.plan tune pool store).minutes, floor ≤ m → m ≤ call.lastClosed → call.lastClosed - tune.zeroBackfillHours * 3600 ≤ m

variable {call : Call}

variable {plan : PassPlan}

theorem zeroMinute_buckets {before : Table MinuteBucket.key} {s : PassState} :
    (zeroMinute tune pool plan before s m).buckets =
      if ¬ (m ∈ plan.minutes ∨ existing plan before pool.poolKey m = some true) then
        s.buckets.put (minuteBucket tune.aggregateVersion pool.poolKey (provenQuoteUsdg tune pool) m [] true)
      else s.buckets := by
  unfold zeroMinute
  by_cases there : m ∈ plan.minutes ∨ existing plan before pool.poolKey m = some true
  · rw [if_pos there, if_neg (not_not.mpr there)]
  · rw [if_neg there, if_pos there]
    rfl

theorem eventedMinute_buckets {before : Table MinuteBucket.key} {s : PassState} :
    (eventedMinute tune pool plan before s m).buckets =
      if ¬ (plan.lastClosedMinute < m ∨ existing plan before pool.poolKey m = some (decide (plan.zeroFloorMinute ≤ m))) then
        s.buckets.put (minuteBucket tune.aggregateVersion pool.poolKey (provenQuoteUsdg tune pool) m (plan.rows m) (decide (plan.zeroFloorMinute ≤ m)))
      else s.buckets := by
  unfold eventedMinute
  dsimp only
  split
  · rename_i ahead
    rw [if_neg (not_not.mpr (Or.inl ahead))]
  · rename_i closed
    split
    · rename_i same
      rw [if_neg (not_not.mpr (Or.inr same))]
    · rename_i differs
      rw [if_pos (not_or.mpr ⟨closed, differs⟩)]
      rfl

theorem minuteBucket_inj {version key : ℕ} {quoted : Bool} {swaps : ℤ → List Payload} {complete : ℤ → Bool} (i j : ℤ)
    (same : (minuteBucket version key quoted i (swaps i) (complete i)).key = (minuteBucket version key quoted j (swaps j) (complete j)).key) : i = j :=
  (Prod.mk.inj (toLex.injective same)).2

def Call.passed (call : Call) (tune : AggregateTune) (pool : Discovery) (store : AggregateStore) : PassState :=
  (call.plan tune pool store).zeroMinutes.foldl (zeroMinute tune pool (call.plan tune pool store) store.buckets)
    ((call.plan tune pool store).minutes.foldl (eventedMinute tune pool (call.plan tune pool store) store.buckets)
      ⟨store.buckets, (call.plan tune pool store).lastMinute⟩)

theorem pass_eq (opens : (call.plan tune pool store).fromMinute ≤ call.lastClosed) :
    call.pass tune pool store = { store with
      buckets := (call.passed tune pool store).buckets
      watermarks := fun key => if key = pool.poolKey then some (call.passed tune pool store).watermark else store.watermarks key } :=
  if_neg (not_lt.mpr opens)

theorem passed_get :
    (call.passed tune pool store).buckets.get? (toLex (pool.poolKey, m)) =
      if m ∈ (call.plan tune pool store).zeroMinutes ∧
          ¬ (m ∈ (call.plan tune pool store).minutes ∨ existing (call.plan tune pool store) store.buckets pool.poolKey m = some true) then
        some (minuteBucket tune.aggregateVersion pool.poolKey (provenQuoteUsdg tune pool) m [] true)
      else if m ∈ (call.plan tune pool store).minutes ∧
          ¬ ((call.plan tune pool store).lastClosedMinute < m ∨
            existing (call.plan tune pool store) store.buckets pool.poolKey m = some (decide ((call.plan tune pool store).zeroFloorMinute ≤ m))) then
        some (minuteBucket tune.aggregateVersion pool.poolKey (provenQuoteUsdg tune pool) m ((call.plan tune pool store).rows m)
          (decide ((call.plan tune pool store).zeroFloorMinute ≤ m)))
      else store.buckets.get? (toLex (pool.poolKey, m)) := by
  have zeroed := fun s : PassState => @Table.get?_foldl_put_if _ _ _ MinuteBucket.key _ _ PassState.buckets
    (zeroMinute tune pool (call.plan tune pool store) store.buckets)
    (fun m => minuteBucket tune.aggregateVersion pool.poolKey (provenQuoteUsdg tune pool) m [] true) _ _ _
    (fun _ _ => zeroMinute_buckets) minuteBucket_inj (call.plan tune pool store).zeroMinutes s m
  have evented := fun s : PassState => @Table.get?_foldl_put_if _ _ _ MinuteBucket.key _ _ PassState.buckets
    (eventedMinute tune pool (call.plan tune pool store) store.buckets)
    (fun m => minuteBucket tune.aggregateVersion pool.poolKey (provenQuoteUsdg tune pool) m ((call.plan tune pool store).rows m)
      (decide ((call.plan tune pool store).zeroFloorMinute ≤ m))) _ _ _
    (fun _ _ => eventedMinute_buckets) minuteBucket_inj (call.plan tune pool store).minutes s m
  exact (zeroed _).trans (if_congr Iff.rfl rfl (evented _))

theorem mem_zeroMinutes_iff : m ∈ plan.zeroMinutes ↔ plan.zeroStart ≤ m ∧ m ≤ plan.lastClosedMinute ∧ 60 ∣ m - plan.zeroStart := by
  unfold PassPlan.zeroMinutes
  rw [List.mem_map]
  constructor
  · rintro ⟨i, inside, rfl⟩
    have bound := List.mem_range.mp inside
    omega
  · rintro ⟨start, closed, steps⟩
    refine ⟨((m - plan.zeroStart) / 60).toNat, List.mem_range.mpr ?_, ?_⟩ <;> omega

theorem busy_zeroStart {busy : ℤ} (member : busy ∈ plan.minutes) : busy + 60 ≤ plan.zeroStart := by
  unfold PassPlan.zeroStart
  cases newest : plan.minutes.max? with
  | none =>
    rw [List.max?_eq_none_iff.mp newest] at member
    cases member
  | some latest =>
    have before := (List.max?_le_iff newest).mp le_rfl busy member
    simp only [Option.map_some, Option.getD_some]
    omega

theorem zeroStart_le (floor : plan.zeroFloorMinute ≤ m) (from' : plan.fromMinute ≤ m) (last : ∀ busy ∈ plan.minutes, busy + 60 ≤ m) :
    plan.zeroStart ≤ m := by
  unfold PassPlan.zeroStart
  cases newest : plan.minutes.max? with
  | none => exact max_le floor from'
  | some latest => exact max_le floor (last latest (List.max?_mem newest))

theorem from_le_floor : (call.plan tune pool store).fromMinute ≤ (call.plan tune pool store).zeroFloorMinute :=
  (le_max_right _ _).trans (le_max_right _ _)

theorem rows_minuteSwaps (aligned : 60 ∣ m) (from' : (call.plan tune pool store).fromMinute ≤ m) (closed : m ≤ call.lastClosed) :
    (call.plan tune pool store).rows m = minuteSwaps store pool m := by
  have past := @lastClosed_closed tune store pool call.completeThrough call.now
  change call.lastClosed + 60 ≤ call.completeThrough at past
  exact poolSwaps_minute aligned from' (by push_cast; omega)

section Aligned

variable (aligned : ∀ wm ∈ store.watermarks pool.poolKey, 60 ∣ wm)

include aligned in
theorem from_le_busy {busy : ℤ} (member : busy ∈ (call.plan tune pool store).minutes) : (call.plan tune pool store).fromMinute ≤ busy := by
  have from' := @fromMinute_aligned tune store pool call.completeThrough call.now aligned
  change 60 ∣ (call.plan tune pool store).fromMinute at from'
  obtain ⟨swap, read, rfl⟩ := List.mem_map.mp (List.mem_dedup.mp member)
  obtain ⟨row, _, found⟩ := List.mem_filterMap.mp read
  split at found
  · obtain ⟨ts, dated, rfl⟩ := Option.map_eq_some_iff.mp found
    obtain ⟨_, ranged⟩ := Option.filter_eq_some_iff.mp dated
    have later : (call.plan tune pool store).fromMinute ≤ (ts : ℤ) := (of_decide_eq_true ranged).1
    have here := ((minuteOf_eq_iff (minuteOf_aligned ts)).mp rfl).2
    have minute := minuteOf_aligned ts
    dsimp only
    omega
  · cases found

end Aligned

/-- Between calls: the rows up to the last closed minute, and nothing of the pool past it. -/
structure Kept (tune : AggregateTune) (pool : Discovery) (floor last : ℤ) (store : AggregateStore) : Prop where
  rows : RowsFilled tune pool floor last store
  ahead : ∀ m, last < m → store.buckets.get? (toLex (pool.poolKey, m)) = none
  aligned : ∀ m, store.buckets.get? (toLex (pool.poolKey, m)) ≠ none → 60 ∣ m
  watermark : ∀ wm ∈ store.watermarks pool.poolKey, 60 ∣ wm ∧ wm ≤ max 0 last
  seeded : minuteOf ((store.seeds .clPools).getD 0) ≤ floor

/-- The first call whose floor it is, or one close enough to the call before it. -/
structure Next (tune : AggregateTune) (pool : Discovery) (floor last : ℤ) (store : AggregateStore) (call : Call) : Prop where
  later : last ≤ call.lastClosed
  reaches : ∀ m, 60 ∣ m → floor ≤ m → last < m → (call.plan tune pool store).zeroFloorMinute ≤ m

theorem Kept.opens (kept : Kept tune pool floor last store) (next : Next tune pool floor last store call) :
    (call.plan tune pool store).fromMinute ≤ call.lastClosed := by
  have below : -60 ≤ call.lastClosed := by
    unfold Call.lastClosed minuteOf
    omega
  have later := next.later
  have start : (call.plan tune pool store).fromMinute = (store.watermarks pool.poolKey).getD 0 - 60 := rfl
  rw [start]
  cases known : store.watermarks pool.poolKey with
  | none => simpa using below
  | some wm =>
    have bound := (kept.watermark wm known).2
    rw [Option.getD_some]
    omega

theorem existing_eq (from' : (call.plan tune pool store).fromMinute ≤ m) (closed : m ≤ call.lastClosed) :
    existing (call.plan tune pool store) store.buckets pool.poolKey m =
      (store.buckets.get? (toLex (pool.poolKey, m))).map MinuteBucket.complete := if_pos ⟨from', closed⟩

theorem Kept.floor_le (kept : Kept tune pool floor last store) (from' : (call.plan tune pool store).fromMinute ≤ m) (inside : floor ≤ m)
    (recent : call.lastClosed - tune.zeroBackfillHours * 3600 ≤ m) : (call.plan tune pool store).zeroFloorMinute ≤ m :=
  max_le (kept.seeded.trans inside) (max_le recent from')

theorem Kept.fills (kept : Kept tune pool floor last store) (next : Next tune pool floor last store call)
    (steady : Steady tune pool floor store call) (aligned : 60 ∣ m) (inside : floor ≤ m) (closed : m ≤ call.lastClosed) :
    (call.passed tune pool store).buckets.get? (toLex (pool.poolKey, m)) = some (completeRow tune pool store m) := by
  have watermarks := fun wm known => (kept.watermark wm known).1
  rw [passed_get]
  rcases le_or_gt m last with before | new
  · -- the row is there and complete, and neither pass writes it
    have row := kept.rows m aligned inside before
    have known (from' : (call.plan tune pool store).fromMinute ≤ m) : existing (call.plan tune pool store) store.buckets pool.poolKey m = some true := by
      rw [existing_eq from' closed, row]
      rfl
    rw [if_neg, if_neg, row]
    · rintro ⟨busy, skipped⟩
      have from' := from_le_busy watermarks busy
      have covered := kept.floor_le from' inside (steady.recent m busy inside closed)
      exact skipped (Or.inr (by rw [known from', decide_eq_true covered]))
    · rintro ⟨zero, skipped⟩
      have start := (mem_zeroMinutes_iff.mp zero).1
      exact skipped (Or.inr (known (from_le_floor.trans ((le_max_left _ _).trans start))))
  · have covered := next.reaches m aligned inside new
    have from' := from_le_floor.trans covered
    have absent : existing (call.plan tune pool store) store.buckets pool.poolKey m = none := by
      rw [existing_eq from' closed, kept.ahead m new]
      rfl
    rw [absent]
    unfold completeRow
    rw [← rows_minuteSwaps aligned from' closed]
    by_cases busy : m ∈ (call.plan tune pool store).minutes
    · rw [if_neg (fun both => both.2 (Or.inl busy)), if_pos ⟨busy, not_or.mpr ⟨not_lt.mpr closed, by simp⟩⟩, decide_eq_true covered]
    · have start : (call.plan tune pool store).zeroStart ≤ m := by
        refine zeroStart_le covered from' fun other member => ?_
        have ahead := steady.quiet m aligned inside closed busy (kept.ahead m new) other member
        have minute := minutes_aligned other member
        omega
      have grid := @zeroStart_aligned tune store pool call.completeThrough call.now watermarks
      change 60 ∣ (call.plan tune pool store).zeroStart at grid
      rw [if_pos ⟨mem_zeroMinutes_iff.mpr ⟨start, closed, by omega⟩, not_or.mpr ⟨busy, by simp⟩⟩, rows_other busy]

theorem Kept.steady (kept : Kept tune pool floor last store) (next : Next tune pool floor last store call)
    (filled : ∀ m, 60 ∣ m → floor ≤ m → m ≤ call.lastClosed →
      (call.passed tune pool store).buckets.get? (toLex (pool.poolKey, m)) = some (completeRow tune pool store m)) :
    Steady tune pool floor store call where
  quiet m aligned inside closed quiet missing busy member := by
    by_contra notBefore
    have row := filled m aligned inside closed
    have start := busy_zeroStart member
    have zero : m ∉ (call.plan tune pool store).zeroMinutes := fun zero => by
      have from' := (mem_zeroMinutes_iff.mp zero).1
      omega
    rw [passed_get, if_neg (fun both => zero both.1), if_neg (fun both => quiet both.1), missing] at row
    cases row
  recent m busy inside closed := by
    by_contra old
    have watermarks := fun wm known => (kept.watermark wm known).1
    have aligned := minutes_aligned m busy
    have outside : ¬ (call.plan tune pool store).zeroFloorMinute ≤ m := fun covered =>
      old ((le_max_left _ _).trans ((le_max_right _ _).trans covered))
    -- an older minute was closed before, so its row is complete, and is written again
    have before : m ≤ last := not_lt.mp fun new => outside (next.reaches m aligned inside new)
    have known : existing (call.plan tune pool store) store.buckets pool.poolKey m = some true := by
      rw [existing_eq (from_le_busy watermarks busy) closed, kept.rows m aligned inside before]
      rfl
    have rewritten : existing (call.plan tune pool store) store.buckets pool.poolKey m ≠
        some (decide ((call.plan tune pool store).zeroFloorMinute ≤ m)) := by
      rw [known, decide_eq_false outside]
      exact Option.some_inj.not.mpr (by decide)
    have row := filled m aligned inside closed
    rw [passed_get, if_neg (fun both => both.2 (Or.inl busy)), if_pos ⟨busy, not_or.mpr ⟨not_lt.mpr closed, rewritten⟩⟩] at row
    have complete := congrArg MinuteBucket.complete (Option.some.inj row)
    exact outside (of_decide_eq_true complete)

theorem passed_watermark (aligned : ∀ wm ∈ store.watermarks pool.poolKey, 60 ∣ wm) :
    60 ∣ (call.passed tune pool store).watermark ∧
      (call.passed tune pool store).watermark ≤ max (call.plan tune pool store).lastMinute call.lastClosed := by
  have written (s : PassState) (m : ℤ) (swaps : List Payload) (complete : Bool) (minute : 60 ∣ m) (closed : m ≤ call.lastClosed)
      (before : 60 ∣ s.watermark ∧ s.watermark ≤ max (call.plan tune pool store).lastMinute call.lastClosed) :
      60 ∣ (writeMinute tune pool m swaps complete s).watermark ∧
        (writeMinute tune pool m swaps complete s).watermark ≤ max (call.plan tune pool store).lastMinute call.lastClosed := by
    unfold writeMinute
    dsimp only
    omega
  have evented := List.foldlRecOn (motive := fun s : PassState => 60 ∣ s.watermark ∧ s.watermark ≤ max (call.plan tune pool store).lastMinute call.lastClosed)
    (call.plan tune pool store).minutes (eventedMinute tune pool (call.plan tune pool store) store.buckets)
    (b := ⟨store.buckets, (call.plan tune pool store).lastMinute⟩) ⟨@lastMinute_aligned tune store pool call.completeThrough call.now aligned, le_max_left _ _⟩
    fun s before m member => by
      unfold eventedMinute
      dsimp only
      split
      · exact before
      · rename_i closed
        split
        · exact before
        · exact written s m _ _ (minutes_aligned m member) (not_lt.mp closed) before
  refine List.foldlRecOn (motive := fun s : PassState => 60 ∣ s.watermark ∧ s.watermark ≤ max (call.plan tune pool store).lastMinute call.lastClosed)
    _ _ evented fun s before m member => ?_
  obtain ⟨minute, _, closed⟩ := mem_zeroMinutes aligned member
  unfold zeroMinute
  split
  · exact before
  · exact written s m _ _ minute closed before

theorem Kept.pass (kept : Kept tune pool floor last store) (next : Next tune pool floor last store call)
    (filled : RowsFilled tune pool floor call.lastClosed (call.pass tune pool store)) :
    Kept tune pool floor call.lastClosed (call.pass tune pool store) := by
  have watermarks := fun wm known => (kept.watermark wm known).1
  have eq := pass_eq (kept.opens next)
  have buckets : (call.pass tune pool store).buckets = (call.passed tune pool store).buckets := by rw [eq]
  refine ⟨filled, fun m ahead => ?_, fun m there => ?_, fun wm known => ?_, ?_⟩
  · rw [buckets, passed_get, if_neg, if_neg, kept.ahead m (next.later.trans_lt ahead)]
    · exact fun both => both.2 (Or.inl ahead)
    · exact fun both => absurd (mem_zeroMinutes_iff.mp both.1).2.1 (not_le.mpr ahead)
  · rw [buckets, passed_get] at there
    split at there
    · rename_i zero
      exact (mem_zeroMinutes watermarks zero.1).1
    · split at there
      · rename_i busy
        exact minutes_aligned m busy.1
      · exact kept.aligned m there
  · rw [eq] at known
    simp only [if_true] at known
    obtain rfl := Option.some.inj known
    obtain ⟨minute, bound⟩ := passed_watermark watermarks
    refine ⟨minute, bound.trans (max_le ?_ (le_max_right _ _))⟩
    have start : (call.plan tune pool store).lastMinute = (store.watermarks pool.poolKey).getD 0 := rfl
    rw [start]
    cases before : store.watermarks pool.poolKey with
    | none => exact le_max_left _ _
    | some wm => exact (kept.watermark wm before).2.trans (max_le_max le_rfl next.later)
  · rw [eq]
    exact kept.seeded

theorem Kept.filled_iff (kept : Kept tune pool floor last store) (next : Next tune pool floor last store call) :
    RowsFilled tune pool floor call.lastClosed (call.pass tune pool store) ↔ Steady tune pool floor store call := by
  have eq := pass_eq (kept.opens next)
  constructor
  · intro filled
    refine kept.steady next fun m aligned inside closed => ?_
    have row := filled m aligned inside closed
    rw [eq] at row
    exact row
  · intro steady m aligned inside closed
    rw [eq]
    exact kept.fills next steady aligned inside closed

theorem hourStart_dvd (now : ℕ) : 60 ∣ hourStart now := by
  unfold hourStart
  omega

theorem Kept.hours (kept : Kept tune pool floor last store) {hour : ℤ} (grid : 60 ∣ hour) (inside : floor ≤ hour) (closed : hour + 3600 ≤ last + 60) :
    (hourRows store pool hour).length = 60 := by
  have minutes : ((hourRows store pool hour).map MinuteBucket.minuteTs).Perm ((List.range 60).map fun i : ℕ => hour + 60 * (i : ℤ)) := by
    apply (List.perm_ext_iff_of_nodup _ _).mpr
    · intro m
      rw [List.mem_map, List.mem_map]
      constructor
      · rintro ⟨row, member, rfl⟩
        obtain ⟨stored, facts⟩ := List.mem_filter.mp member
        obtain ⟨key, _, start, ends⟩ := of_decide_eq_true facts
        have there := Table.get?_of_mem stored
        have named : row.key = toLex (pool.poolKey, row.minuteTs) := by
          rw [← key]
          rfl
        rw [named] at there
        have minute := kept.aligned row.minuteTs (by rw [there]; exact Option.some_ne_none _)
        refine ⟨((row.minuteTs - hour) / 60).toNat, List.mem_range.mpr ?_, ?_⟩ <;> omega
      · rintro ⟨i, inRange, rfl⟩
        have small := List.mem_range.mp inRange
        have row := kept.rows (hour + 60 * (i : ℤ)) (by omega) (by omega) (by omega)
        refine ⟨_, List.mem_filter.mpr ⟨Table.get?_mem row, decide_eq_true ?_⟩, rfl⟩
        have first : hour ≤ hour + 60 * (i : ℤ) := by omega
        have past : hour + 60 * (i : ℤ) < hour + 3600 := by omega
        exact ⟨rfl, rfl, first, past⟩
    · apply List.pairwise_map.mpr
      refine (store.buckets.sorted.filter _).imp_of_mem fun {row other} member also before same => ?_
      have key := (of_decide_eq_true (List.mem_filter.mp member).2).1
      have others := (of_decide_eq_true (List.mem_filter.mp also).2).1
      have equal : row.key = other.key := by
        unfold MinuteBucket.key
        rw [key, others, same]
      exact absurd equal before.ne
    · exact List.nodup_range.map fun i j (same : hour + 60 * (i : ℤ) = hour + 60 * (j : ℤ)) => by omega
  have lengths := minutes.length_eq
  rwa [List.length_map, List.length_map, List.length_range] at lengths

theorem Kept.filled (kept : Kept tune pool floor last store) : Filled tune pool floor last store := by
  refine ⟨kept.rows, fun now inside closed => ?_⟩
  have sixty := kept.hours (hourStart_dvd now) inside closed
  refine ⟨sixty, ?_⟩
  unfold rollUpHour
  dsimp only
  rw [sixty, if_neg (lt_irrefl 60)]
  rfl

theorem Kept.next (kept : Kept tune pool floor call.lastClosed store) {following : Call} (later : call.through ≤ following.through)
    (near : following.through ≤ call.through + tune.zeroBackfillHours * 3600) : Next tune pool floor call.lastClosed store following := by
  have times : call.lastClosed ≤ following.lastClosed ∧ following.lastClosed - tune.zeroBackfillHours * 3600 ≤ call.lastClosed := by
    unfold Call.lastClosed minuteOf
    omega
  refine ⟨times.1, fun m _ inside new => ?_⟩
  have seeded := kept.seeded
  have born : 0 ≤ minuteOf ((store.seeds .clPools).getD 0) := Int.natCast_nonneg _
  apply kept.floor_le _ inside (by omega)
  have start : (following.plan tune pool store).fromMinute = (store.watermarks pool.poolKey).getD 0 - 60 := rfl
  rw [start]
  cases known : store.watermarks pool.poolKey with
  | none =>
    rw [Option.getD_none]
    omega
  | some wm =>
    have bound := (kept.watermark wm known).2
    rw [Option.getD_some]
    omega

theorem Kept.along_iff {calls : List Call} (kept : Kept tune pool floor last store) (next : ∀ head ∈ calls.head?, Next tune pool floor last store head)
    (spaced : Spaced tune calls) :
    Trace.Along (fun s (call : Call) => call.pass tune pool s) (fun s call => Filled tune pool floor call.lastClosed (call.pass tune pool s)) store calls ↔
      Trace.Along (fun s (call : Call) => call.pass tune pool s) (Steady tune pool floor) store calls := by
  induction calls generalizing store last with
  | nil => exact Iff.rfl
  | cons call rest ih =>
    have own := next call rfl
    have rest_iff (filled : RowsFilled tune pool floor call.lastClosed (call.pass tune pool store)) :=
      ih (kept.pass own filled) (fun following head => by
        obtain ⟨later, near⟩ := List.IsChain.rel_head? spaced head
        exact (kept.pass own filled).next later near) spaced.tail
    constructor
    · rintro ⟨filled, later⟩
      exact ⟨(kept.filled_iff own).mp filled.rows, (rest_iff filled.rows).mp later⟩
    · rintro ⟨steady, later⟩
      have filled := (kept.filled_iff own).mpr steady
      exact ⟨(kept.pass own filled).filled, (rest_iff filled).mpr later⟩

/-- Every call of a run leaves every minute with its row, and the hours with sixty, exactly where every call is steady. -/
theorem minutes_filled_iff (tune : AggregateTune) (pool : Discovery) (store : AggregateStore) (fresh : Fresh pool store) (first : Call)
    (calls : List Call) (spaced : Spaced tune (first :: calls)) :
    Trace.Along (fun s (call : Call) => call.pass tune pool s)
        (fun s call => Filled tune pool (first.plan tune pool store).zeroFloorMinute call.lastClosed (call.pass tune pool s)) store (first :: calls) ↔
      Trace.Along (fun s (call : Call) => call.pass tune pool s) (Steady tune pool (first.plan tune pool store).zeroFloorMinute) store (first :: calls) := by
  have born : 0 ≤ minuteOf ((store.seeds .clPools).getD 0) := Int.natCast_nonneg _
  have seeded : minuteOf ((store.seeds .clPools).getD 0) ≤ (first.plan tune pool store).zeroFloorMinute := le_max_left _ _
  have kept : Kept tune pool (first.plan tune pool store).zeroFloorMinute (-60) store := by
    refine ⟨fun m _ inside closed => ?_, fun m _ => fresh.rows m, fun m there => absurd (fresh.rows m) there, fun wm known => ?_, seeded⟩
    · omega
    · rw [fresh.watermark] at known
      cases known
  apply kept.along_iff _ spaced
  intro head isFirst
  obtain rfl := Option.some.inj isFirst
  refine ⟨?_, fun m _ inside _ => inside⟩
  unfold Call.lastClosed minuteOf
  omega

def tradedStore (seed : ℕ) (times : List ℕ) : AggregateStore :=
  { AggregateStore.empty with
    events := times.map fun ts =>
      ⟨⟨ts, 0, 0, 0, 0, some ts, 7, .swap, some (samplePool 7).poolKey, none, ⟨none, none, none, some (-5), some 9, none⟩⟩, ts, true⟩
    seeds := fun _ => some seed }

theorem fresh_traded {seed : ℕ} {times : List ℕ} : Fresh (samplePool 7) (tradedStore seed times) := ⟨fun _ => rfl, rfl⟩

/-- A swap in the first minute of the coverage, and calls a minute apart. -/
theorem minutes_filled_iff_quiet_after :
    Trace.Along (fun s (call : Call) => call.pass sampleTune (samplePool 7) s)
      (fun s call => Filled sampleTune (samplePool 7) 60 call.lastClosed (call.pass sampleTune (samplePool 7) s)) (tradedStore 60 [70])
      [⟨130, 130⟩, ⟨200, 200⟩] := by
  have busy : ((⟨130, 130⟩ : Call).plan sampleTune (samplePool 7) (tradedStore 60 [70])).minutes = [60] ∧
      ((⟨200, 200⟩ : Call).plan sampleTune (samplePool 7) ((⟨130, 130⟩ : Call).pass sampleTune (samplePool 7) (tradedStore 60 [70]))).minutes = [60] := by
    decide
  have steady (s : AggregateStore) (call : Call) (minutes : (call.plan sampleTune (samplePool 7) s).minutes = [60]) (near : call.lastClosed ≤ 21660) :
      Steady sampleTune (samplePool 7) 60 s call := by
    constructor
    · intro m _ inside _ quiet _ other member
      rw [minutes] at quiet member
      have here : m ≠ 60 := fun same => quiet (List.mem_singleton.mpr same)
      rw [List.mem_singleton.mp member]
      omega
    · intro m member _ _
      rw [minutes] at member
      rw [List.mem_singleton.mp member]
      show call.lastClosed - 21600 ≤ 60
      omega
  exact (minutes_filled_iff sampleTune (samplePool 7) (tradedStore 60 [70]) fresh_traded ⟨130, 130⟩ [⟨200, 200⟩] (.cons_cons (by decide) (.singleton _))).mpr
    ⟨steady _ _ busy.1 (by decide), steady _ _ busy.2 (by decide), trivial⟩

/-- Swaps at 70 and at 190: the minute between them is closed and has no row. -/
theorem minute_between_swaps_missing :
    Fresh (samplePool 7) (tradedStore 0 [70, 190]) ∧
      ((⟨250, 250⟩ : Call).plan sampleTune (samplePool 7) (tradedStore 0 [70, 190])).zeroFloorMinute = 0 ∧ (⟨250, 250⟩ : Call).lastClosed = 180 ∧
      ((⟨250, 250⟩ : Call).pass sampleTune (samplePool 7) (tradedStore 0 [70, 190])).buckets.get? (toLex ((samplePool 7).poolKey, 120)) = none ∧
      ¬ Filled sampleTune (samplePool 7) 0 180 ((⟨250, 250⟩ : Call).pass sampleTune (samplePool 7) (tradedStore 0 [70, 190])) := by
  have missing : ((⟨250, 250⟩ : Call).pass sampleTune (samplePool 7) (tradedStore 0 [70, 190])).buckets.get? (toLex ((samplePool 7).poolKey, 120)) = none := by
    decide
  refine ⟨fresh_traded, by decide, by decide, missing, fun filled => ?_⟩
  have row := filled.rows 120 (by decide) (by decide) (by decide)
  rw [missing] at row
  cases row

end LpTerminal.Emerging.Minutes
