import LpTerminal.Lib.InsertionMap
import Mathlib.Data.Int.Interval
import Mathlib.Data.Rat.Floor
import Mathlib.Data.Int.ConditionallyCompleteOrder

/-!
The tick samples that the recommender is sent, and what the model makes of their coverage of the last day and of the last
seven days.
-/

namespace LpTerminal.Recommendation

/-- The fields of a row that decide which rows are kept. -/
structure TickSample where
  ts : ℤ
  tick : ℤ
  deriving DecidableEq

def RECOMMENDATION_RECENT_TICK_SECONDS : ℤ := 24 * 3600

def RECOMMENDATION_RECENT_TICK_BUCKET_SECONDS : ℤ := 5 * 60

def RECOMMENDATION_RISK_TICK_BUCKET_SECONDS : ℤ := 30 * 60

/-- The key of a row: the length of its bucket and the bucket's number on the clock. -/
def clockBucket (timestamp ts : ℤ) : ℤ × ℤ :=
  let bucketSeconds := if timestamp - RECOMMENDATION_RECENT_TICK_SECONDS ≤ ts then RECOMMENDATION_RECENT_TICK_BUCKET_SECONDS
    else RECOMMENDATION_RISK_TICK_BUCKET_SECONDS
  (bucketSeconds, ts / bucketSeconds)

def latestOf (rows : List TickSample) (timestamp : ℤ) : InsertionMap (ℤ × ℤ) TickSample :=
  rows.foldl (fun latest row => latest.set (clockBucket timestamp row.ts) row) .empty

def downsampleRecommendationTicks (rows : List TickSample) (timestamp : ℤ) : List TickSample :=
  (latestOf rows timestamp).values.mergeSort fun a b => a.ts ≤ b.ts

structure RecommendationHistoryCoverage where
  windowSeconds : ℤ
  coveredSeconds : ℤ
  ratio : ℚ
  sampleCount : ℕ
  firstAt : Option ℤ
  lastAt : Option ℤ
  maxGapSeconds : Option ℤ

section
variable {T : Type*} (ts : T → ℤ) (samples : List T) (start stop bucketSeconds : ℤ)

def rowsBetween : List T :=
  (samples.filter fun row => start ≤ ts row ∧ ts row ≤ stop).mergeSort fun a b => ts a ≤ ts b

/-- Of which bucket of the window a time is; the last one has the end of the window too. -/
def windowBucket (t : ℤ) : ℤ :=
  min (max 0 ((t - start) / bucketSeconds)) (max 0 (⌈((max 0 (stop - start) : ℤ) : ℚ) / bucketSeconds⌉ - 1))

def uniqueBuckets : List ℤ := ((rowsBetween ts samples start stop).map fun row => windowBucket start stop bucketSeconds (ts row)).dedup

def stepsOf : List T → List ℤ
  | a :: b :: rest => (ts b - ts a) :: stepsOf (b :: rest)
  | _ => []

def historyCoverage : RecommendationHistoryCoverage :=
  let windowSeconds := max 0 (stop - start)
  let rows := rowsBetween ts samples start stop
  let coveredSeconds := min windowSeconds ((uniqueBuckets ts samples start stop bucketSeconds).length * bucketSeconds)
  match rows.head?, rows.getLast? with
  | some first, some last =>
    { windowSeconds
      coveredSeconds
      ratio := if 0 < windowSeconds then coveredSeconds / windowSeconds else 0
      sampleCount := rows.length
      firstAt := some (ts first)
      lastAt := some (ts last)
      maxGapSeconds := some ((stepsOf ts rows).foldl max (max 0 (max (ts first - start) (stop - ts last)))) }
  | _, _ => ⟨windowSeconds, 0, 0, 0, none, none, none⟩

end

/-- A window of the model with what it asks of the samples in it. -/
structure Gate where
  bucketSeconds : ℤ
  buckets : ℕ
  minRatio : ℚ
  maxGap : ℤ
  bucketed : 0 < bucketSeconds
  some : 0 < buckets
  demanding : 0 < minRatio
  short : 0 ≤ maxGap ∧ maxGap < bucketSeconds * buckets

def Gate.window (gate : Gate) : ℤ := gate.bucketSeconds * gate.buckets

/-- The last day, by `RECENT_TICK_BUCKET`. -/
def tickGate : Gate := ⟨300, 288, 4 / 5, 30 * 60, by decide, by decide, by norm_num, by decide⟩

/-- Seven days, by `RISK_TICK_BUCKET`. -/
def riskGate : Gate := ⟨1800, 336, 7 / 10, 6 * 3600, by decide, by decide, by norm_num, by decide⟩

/-- `tickCoverage` and `riskCoverage` of `scoreCandidate`. -/
def Gate.coverage (gate : Gate) (tickHistory : List TickSample) (now : ℤ) : RecommendationHistoryCoverage :=
  historyCoverage TickSample.ts (tickHistory.filter fun row => now - gate.window ≤ row.ts) (now - gate.window) now gate.bucketSeconds

/-- Whether `insufficient_tick_history`, or `insufficient_risk_history`, is among the reasons. -/
def Gate.insufficient (gate : Gate) (coverage : RecommendationHistoryCoverage) : Prop :=
  coverage.ratio < gate.minRatio ∨ ∀ gap ∈ coverage.maxGapSeconds, gate.maxGap < gap

section Evidence
variable (gate : Gate) (rows : List TickSample) (timestamp now : ℤ)

def Gate.InWindow (t : ℤ) : Prop := now - gate.window ≤ t ∧ t ≤ now

instance {t : ℤ} : Decidable (gate.InWindow now t) := inferInstanceAs (Decidable (_ ∧ _))

def Gate.bucketOf (t : ℤ) : ℤ := windowBucket (now - gate.window) now gate.bucketSeconds t

def Gate.covered : Finset ℤ := ((rows.filter fun row => gate.InWindow now row.ts).map fun row => gate.bucketOf now row.ts).toFinset

/-- No stretch of the window without a sample is longer than the gate lets it be. -/
def Gate.Gapless (sampled : ℤ → Prop) : Prop :=
  ∀ x, now - gate.window ≤ x → x + gate.maxGap < now → ∃ t, sampled t ∧ gate.InWindow now t ∧ x < t ∧ t ≤ x + gate.maxGap

def Sampled (t : ℤ) : Prop := ∃ row ∈ rows, row.ts = t

/-- A sample that is the last one of its bucket on the clock. -/
def Newest (t : ℤ) : Prop :=
  Sampled rows t ∧ ∀ row ∈ rows, clockBucket timestamp row.ts = clockBucket timestamp t → row.ts ≤ t

/-- What the kept samples have to leave of the evidence for one gate. -/
structure Gate.Kept : Prop where
  covers : ∀ row ∈ rows, gate.InWindow now row.ts →
    ∃ t, Newest rows timestamp t ∧ gate.InWindow now t ∧ gate.bucketOf now t = gate.bucketOf now row.ts
  gapless : gate.minRatio ≤ ((gate.covered rows now).card : ℚ) / gate.buckets → gate.Gapless now (Sampled rows) →
    gate.Gapless now (Newest rows timestamp)

/-- Both gates read the same ratio and say the same, and the newest sample is there. -/
def SameEvidence : Prop :=
  (∀ gate ∈ [tickGate, riskGate], (gate.coverage (downsampleRecommendationTicks rows timestamp) now).ratio = (gate.coverage rows now).ratio ∧
    (gate.insufficient (gate.coverage (downsampleRecommendationTicks rows timestamp) now) ↔ gate.insufficient (gate.coverage rows now))) ∧
  (downsampleRecommendationTicks rows timestamp).getLast? = rows.getLast?

end Evidence

section Kept
variable {rows : List TickSample} {timestamp : ℤ}

theorem latestOf_get (rows : List TickSample) (k : ℤ × ℤ) :
    (latestOf rows timestamp).get? k = (rows.filter fun row => clockBucket timestamp row.ts = k).getLast? := by
  induction rows using List.reverseRecOn with
  | nil => rfl
  | append_singleton rest row ih =>
    unfold latestOf at ih ⊢
    rw [List.foldl_append, List.foldl_cons, List.foldl_nil, InsertionMap.get?_set, ih, List.filter_append]
    by_cases own : clockBucket timestamp row.ts = k
    · simp [own]
    · simp [own, Ne.symm own]

theorem mem_downsample {row : TickSample} : row ∈ downsampleRecommendationTicks rows timestamp ↔
    (rows.filter fun other => clockBucket timestamp other.ts = clockBucket timestamp row.ts).getLast? = some row := by
  unfold downsampleRecommendationTicks InsertionMap.values
  rw [List.mem_mergeSort, List.mem_map]
  constructor
  · rintro ⟨⟨k, _⟩, inside, rfl⟩
    rw [InsertionMap.mem_entries, latestOf_get] at inside
    have own := of_decide_eq_true (List.mem_filter.mp (List.mem_of_getLast? inside)).2
    rw [own, inside]
  · intro last
    exact ⟨⟨_, row⟩, InsertionMap.mem_entries.mpr ((latestOf_get rows _).trans last), rfl⟩

theorem sort_sorted (rows : List TickSample) : (rows.mergeSort fun a b => decide (a.ts ≤ b.ts)).Pairwise fun a b => a.ts ≤ b.ts := by
  have sorted := @List.pairwise_mergeSort _ (fun a b : TickSample => decide (a.ts ≤ b.ts)) (fun a b c => by simpa using le_trans)
    (fun a b => by simpa using le_total a.ts b.ts) rows
  simpa using sorted

theorem le_last {rows : List TickSample} (ascending : rows.Pairwise fun a b => a.ts ≤ b.ts) {last row : TickSample}
    (ends : rows.getLast? = some last) (inside : row ∈ rows) : row.ts ≤ last.ts := by
  obtain ⟨before, rfl⟩ := List.getLast?_eq_some_iff.mp ends
  rcases List.mem_append.mp inside with earlier | same
  · exact (List.pairwise_append.mp ascending).2.2 row earlier last List.mem_cons_self
  · rw [List.mem_singleton.mp same]

variable (ascending : rows.Pairwise fun a b => a.ts ≤ b.ts)
include ascending

/-- The kept samples are the newest ones of their buckets. -/
theorem sampled_downsample (t : ℤ) : Sampled (downsampleRecommendationTicks rows timestamp) t ↔ Newest rows timestamp t := by
  constructor
  · rintro ⟨row, kept, rfl⟩
    have last := mem_downsample.mp kept
    have inside := (List.mem_filter.mp (List.mem_of_getLast? last)).1
    refine ⟨⟨row, inside, rfl⟩, fun other member same => ?_⟩
    exact le_last (ascending.filter _) last (List.mem_filter.mpr ⟨member, decide_eq_true same⟩)
  · rintro ⟨⟨row, inside, rfl⟩, newest⟩
    have member : row ∈ rows.filter fun other => clockBucket timestamp other.ts = clockBucket timestamp row.ts :=
      List.mem_filter.mpr ⟨inside, decide_eq_true rfl⟩
    obtain ⟨last, ends⟩ := Option.isSome_iff_exists.mp (List.getLast?_isSome.mpr (List.ne_nil_of_mem member))
    obtain ⟨listed, same⟩ := List.mem_filter.mp (List.mem_of_getLast? ends)
    have same := of_decide_eq_true same
    refine ⟨last, mem_downsample.mpr (same ▸ ends), ?_⟩
    exact le_antisymm (newest last listed same) (le_last (ascending.filter _) ends member)

theorem newest_kept : (downsampleRecommendationTicks rows timestamp).getLast? = rows.getLast? := by
  cases ends : rows.getLast? with
  | none =>
    rw [List.getLast?_eq_none_iff] at ends
    subst ends
    simp [downsampleRecommendationTicks, latestOf, InsertionMap.values, InsertionMap.empty]
  | some last =>
    have own : last ∈ downsampleRecommendationTicks rows timestamp := by
      obtain ⟨before, rfl⟩ := List.getLast?_eq_some_iff.mp ends
      rw [mem_downsample, List.filter_append]
      simp
    obtain ⟨final, found⟩ := Option.isSome_iff_exists.mp (List.getLast?_isSome.mpr (List.ne_nil_of_mem own))
    have sorted : (downsampleRecommendationTicks rows timestamp).Pairwise fun a b => a.ts ≤ b.ts := by
      exact sort_sorted _
    have kept := mem_downsample.mp (List.mem_of_getLast? found)
    have below := le_last ascending ends (List.mem_filter.mp (List.mem_of_getLast? kept)).1
    have same : final.ts = last.ts := le_antisymm below (le_last sorted found own)
    rw [found, ← kept, same]
    exact mem_downsample.mp own

end Kept

section Coverage
variable {gate : Gate} {rows : List TickSample} {now : ℤ}

theorem Gate.window_pos : 0 < gate.window := mul_pos gate.bucketed (by exact_mod_cast gate.some)

/-- The rows that `historyCoverage` sorts. -/
def Gate.between (gate : Gate) (rows : List TickSample) (now : ℤ) : List TickSample :=
  rowsBetween TickSample.ts (rows.filter fun row => now - gate.window ≤ row.ts) (now - gate.window) now

theorem mem_between {row : TickSample} : row ∈ gate.between rows now ↔ row ∈ rows ∧ gate.InWindow now row.ts := by
  unfold Gate.between rowsBetween Gate.InWindow
  rw [List.mem_mergeSort]
  simp only [List.mem_filter, decide_eq_true_eq, Bool.decide_and, Bool.and_eq_true]
  tauto

theorem between_sorted : (gate.between rows now).Pairwise fun a b => a.ts ≤ b.ts := by
  unfold Gate.between rowsBetween
  exact sort_sorted _

theorem length_unique : (((gate.between rows now).map fun row => gate.bucketOf now row.ts).dedup).length = (gate.covered rows now).card := by
  rw [← List.card_toFinset]
  congr 1
  ext bucket
  simp [Gate.covered, mem_between, and_assoc]

theorem bucketOf_mem (t : ℤ) : gate.bucketOf now t ∈ Finset.Ico (0 : ℤ) gate.buckets := by
  have whole : ⌈((max 0 (now - (now - gate.window)) : ℤ) : ℚ) / gate.bucketSeconds⌉ = gate.buckets := by
    have positive : (gate.bucketSeconds : ℚ) ≠ 0 := by exact_mod_cast gate.bucketed.ne'
    rw [sub_sub_cancel, max_eq_right gate.window_pos.le, Gate.window]
    push_cast
    rw [mul_div_cancel_left₀ _ positive]
    exact Int.ceil_natCast _
  have some := gate.some
  unfold Gate.bucketOf windowBucket
  rw [whole, Finset.mem_Ico]
  omega

theorem covered_le : (gate.covered rows now).card ≤ gate.buckets := by
  have inside : gate.covered rows now ⊆ Finset.Ico (0 : ℤ) gate.buckets := by
    intro bucket listed
    obtain ⟨row, -, rfl⟩ := List.mem_map.mp (List.mem_toFinset.mp listed)
    exact bucketOf_mem _
  simpa using Finset.card_le_card inside

theorem coverage_ratio : (gate.coverage rows now).ratio = ((gate.covered rows now).card : ℚ) / gate.buckets := by
  have seconds : (gate.bucketSeconds : ℚ) ≠ 0 := by exact_mod_cast gate.bucketed.ne'
  have buckets : (gate.buckets : ℚ) ≠ 0 := by exact_mod_cast gate.some.ne'
  have window : max 0 (now - (now - gate.window)) = gate.bucketSeconds * gate.buckets := by
    rw [sub_sub_cancel, max_eq_right gate.window_pos.le, Gate.window]
  have within : ((gate.covered rows now).card : ℤ) * gate.bucketSeconds ≤ gate.bucketSeconds * gate.buckets := by
    rw [mul_comm]
    exact mul_le_mul_of_nonneg_left (by exact_mod_cast covered_le) gate.bucketed.le
  have unique : (uniqueBuckets TickSample.ts (rows.filter fun row => now - gate.window ≤ row.ts) (now - gate.window) now
      gate.bucketSeconds).length = (gate.covered rows now).card := length_unique
  unfold Gate.coverage historyCoverage
  dsimp only
  rw [window, unique, min_eq_right within]
  split
  · rw [if_pos (mul_pos gate.bucketed (by exact_mod_cast gate.some))]
    push_cast
    field_simp
  · rename_i unsampled
    have empty : gate.between rows now = [] := by
      cases listed : gate.between rows now with
      | nil => rfl
      | cons first rest =>
        unfold Gate.between at listed
        exact (unsampled first (rest.getLast?.getD first) (by rw [listed]; rfl) (by rw [listed, List.getLast?_cons])).elim
    rw [← length_unique, empty]
    simp

/-- From one time to the next, up to the end, no step is longer than the limit. -/
def Spaced (limit stop : ℤ) : ℤ → List ℤ → Prop
  | last, [] => stop - last ≤ limit
  | last, t :: rest => t - last ≤ limit ∧ Spaced limit stop t rest

theorem spaced_iff {limit stop last : ℤ} {times : List ℤ} (sorted : (last :: times).Pairwise (· ≤ ·)) (ends : ∀ t ∈ times, t ≤ stop) :
    Spaced limit stop last times ↔ ∀ x, last ≤ x → x + limit < stop → ∃ t ∈ times, x < t ∧ t ≤ x + limit := by
  induction times generalizing last with
  | nil =>
    constructor
    · intro short x above less
      unfold Spaced at short
      omega
    · intro all
      by_contra long
      obtain ⟨t, none, -⟩ := all last le_rfl (by unfold Spaced at long; omega)
      cases none
  | cons t rest ih =>
    obtain ⟨first, later⟩ := List.pairwise_cons.mp sorted
    have above := first t List.mem_cons_self
    rw [Spaced, ih later fun s inside => ends s (List.mem_cons_of_mem _ inside)]
    constructor
    · rintro ⟨step, all⟩ x le less
      by_cases before : x < t
      · exact ⟨t, List.mem_cons_self, before, by omega⟩
      · obtain ⟨s, inside, rest⟩ := all x (not_lt.mp before) less
        exact ⟨s, List.mem_cons_of_mem _ inside, rest⟩
    · intro all
      constructor
      · by_contra long
        have stop := ends t List.mem_cons_self
        obtain ⟨s, inside, -, near⟩ := all last le_rfl (by omega)
        rcases List.mem_cons.mp inside with rfl | tail
        · omega
        · have := (List.pairwise_cons.mp later).1 s tail
          omega
      · intro x le less
        obtain ⟨s, inside, past, near⟩ := all x (above.trans le) less
        rcases List.mem_cons.mp inside with rfl | tail
        · omega
        · exact ⟨s, tail, past, near⟩

theorem foldl_max_le {steps : List ℤ} {start limit : ℤ} : steps.foldl max start ≤ limit ↔ start ≤ limit ∧ ∀ step ∈ steps, step ≤ limit := by
  induction steps generalizing start with
  | nil => simp
  | cons step rest ih => simp [ih, and_assoc]

theorem steps_spaced {limit stop : ℤ} {first : TickSample} {rest : List TickSample} :
    (stop - (rest.getLast?.getD first).ts ≤ limit ∧ ∀ step ∈ stepsOf TickSample.ts (first :: rest), step ≤ limit) ↔
      Spaced limit stop first.ts (rest.map TickSample.ts) := by
  induction rest generalizing first with
  | nil => simp [stepsOf, Spaced]
  | cons next rest ih =>
    rw [List.map_cons, Spaced, ← ih, stepsOf, List.getLast?_cons, Option.getD_some]
    simp only [List.mem_cons, forall_eq_or_imp]
    tauto

theorem insufficient_iff : gate.insufficient (gate.coverage rows now) ↔
    ((gate.covered rows now).card : ℚ) / gate.buckets < gate.minRatio ∨ ¬gate.Gapless now (Sampled rows) := by
  unfold Gate.insufficient
  rw [coverage_ratio]
  refine or_congr_right ?_
  have sampled : gate.Gapless now (Sampled rows) ↔ ∀ x, now - gate.window ≤ x → x + gate.maxGap < now →
      ∃ t ∈ (gate.between rows now).map TickSample.ts, x < t ∧ t ≤ x + gate.maxGap := by
    unfold Gate.Gapless Sampled
    refine forall₃_congr fun x _ _ => exists_congr fun t => ?_
    rw [List.mem_map]
    constructor
    · rintro ⟨⟨row, inside, rfl⟩, within, near⟩
      exact ⟨⟨row, mem_between.mpr ⟨inside, within⟩, rfl⟩, near⟩
    · rintro ⟨⟨row, inside, rfl⟩, near⟩
      exact ⟨⟨row, (mem_between.mp inside).1, rfl⟩, (mem_between.mp inside).2, near⟩
  have ordered : ((now - gate.window) :: (gate.between rows now).map TickSample.ts).Pairwise (· ≤ ·) := by
    refine List.pairwise_cons.mpr ⟨fun t listed => ?_, List.pairwise_map.mpr between_sorted⟩
    obtain ⟨row, inside, rfl⟩ := List.mem_map.mp listed
    exact (mem_between.mp inside).2.1
  have ends : ∀ t ∈ (gate.between rows now).map TickSample.ts, t ≤ now := by
    intro t listed
    obtain ⟨row, inside, rfl⟩ := List.mem_map.mp listed
    exact (mem_between.mp inside).2.2
  rw [sampled, ← spaced_iff ordered ends]
  have short := gate.short
  cases listed : gate.between rows now with
  | nil =>
    have none : (gate.coverage rows now).maxGapSeconds = none := by
      unfold Gate.between at listed
      simp only [Gate.coverage, historyCoverage, listed, List.head?_nil]
    rw [none, List.map_nil, Spaced]
    unfold Gate.window
    refine iff_of_true (by simp) (by omega)
  | cons first rest =>
    have gap : (gate.coverage rows now).maxGapSeconds = some ((stepsOf TickSample.ts (first :: rest)).foldl max
        (max 0 (max (first.ts - (now - gate.window)) (now - (rest.getLast?.getD first).ts)))) := by
      unfold Gate.between at listed
      simp only [Gate.coverage, historyCoverage, listed, List.head?_cons, List.getLast?_cons]
    rw [gap, List.map_cons, Spaced, ← steps_spaced]
    simp only [Option.mem_def, Option.some.injEq, forall_eq']
    rw [← not_le, foldl_max_le]
    simp only [max_le_iff]
    tauto

end Coverage

section Exact
variable {gate : Gate} {rows : List TickSample} {timestamp now : ℤ}

theorem mem_covered {bucket : ℤ} :
    bucket ∈ gate.covered rows now ↔ ∃ t, Sampled rows t ∧ gate.InWindow now t ∧ gate.bucketOf now t = bucket := by
  simp [Gate.covered, Sampled, and_assoc]

theorem sampled_kept (ascending : rows.Pairwise fun a b => a.ts ≤ b.ts) :
    Sampled (downsampleRecommendationTicks rows timestamp) = Newest rows timestamp :=
  funext fun t => propext (sampled_downsample ascending t)

theorem covered_fewer (ascending : rows.Pairwise fun a b => a.ts ≤ b.ts) :
    gate.covered (downsampleRecommendationTicks rows timestamp) now ⊆ gate.covered rows now := by
  intro bucket listed
  obtain ⟨t, sampled, rest⟩ := mem_covered.mp listed
  rw [sampled_kept ascending] at sampled
  exact mem_covered.mpr ⟨t, sampled.1, rest⟩

theorem Gate.Gapless.sampled (gapless : gate.Gapless now (Newest rows timestamp)) : gate.Gapless now (Sampled rows) := by
  intro x above less
  obtain ⟨t, newest, near⟩ := gapless x above less
  exact ⟨t, newest.1, near⟩

theorem gate_iff (ascending : rows.Pairwise fun a b => a.ts ≤ b.ts) :
    (gate.coverage (downsampleRecommendationTicks rows timestamp) now).ratio = (gate.coverage rows now).ratio ∧
      (gate.insufficient (gate.coverage (downsampleRecommendationTicks rows timestamp) now) ↔ gate.insufficient (gate.coverage rows now)) ↔
    gate.Kept rows timestamp now := by
  have kept := @sampled_kept rows timestamp ascending
  have fewer := @covered_fewer gate rows timestamp now ascending
  have buckets : (0 : ℚ) < gate.buckets := by exact_mod_cast gate.some
  have ratios : (gate.coverage (downsampleRecommendationTicks rows timestamp) now).ratio = (gate.coverage rows now).ratio ↔
      gate.covered rows now ⊆ gate.covered (downsampleRecommendationTicks rows timestamp) now := by
    rw [coverage_ratio, coverage_ratio, div_left_inj' buckets.ne', Nat.cast_inj]
    exact ⟨fun same => (Finset.eq_of_subset_of_card_le fewer same.ge).ge,
      fun all => congrArg Finset.card (Finset.Subset.antisymm fewer all)⟩
  have covers : gate.covered rows now ⊆ gate.covered (downsampleRecommendationTicks rows timestamp) now ↔
      ∀ row ∈ rows, gate.InWindow now row.ts →
        ∃ t, Newest rows timestamp t ∧ gate.InWindow now t ∧ gate.bucketOf now t = gate.bucketOf now row.ts := by
    constructor
    · intro all row inside within
      have listed := mem_covered.mp (all (mem_covered.mpr ⟨row.ts, ⟨row, inside, rfl⟩, within, rfl⟩))
      rwa [kept] at listed
    · intro all bucket listed
      obtain ⟨t, ⟨row, inside, rfl⟩, within, rfl⟩ := mem_covered.mp listed
      rw [mem_covered, kept]
      exact all row inside within
  constructor
  · rintro ⟨same, verdicts⟩
    rw [insufficient_iff, insufficient_iff, ← coverage_ratio, ← coverage_ratio, same, kept, coverage_ratio] at verdicts
    refine ⟨covers.mp (ratios.mp same), fun enough gapless => ?_⟩
    by_contra gap
    rcases verdicts.mp (.inr gap) with low | long
    · exact absurd enough (not_le.mpr low)
    · exact long gapless
  · rintro ⟨all, gapless⟩
    have same := ratios.mpr (covers.mpr all)
    refine ⟨same, ?_⟩
    rw [insufficient_iff, insufficient_iff, ← coverage_ratio, ← coverage_ratio, same, kept, coverage_ratio]
    by_cases low : ((gate.covered rows now).card : ℚ) / gate.buckets < gate.minRatio
    · exact iff_of_true (.inl low) (.inl low)
    · exact or_congr_right (not_congr ⟨Gate.Gapless.sampled, gapless (not_lt.mp low)⟩)

end Exact

end LpTerminal.Recommendation
