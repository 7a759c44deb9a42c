import LpTerminal.Volume.PairVolume
import Mathlib.Data.List.Sort
import Mathlib.Tactic.Linarith
import Mathlib.Data.Int.ConditionallyCompleteOrder

/-!
What the differences of the last rolling samples of two days measure, for a cumulative volume sampled at any times.
-/

namespace LpTerminal.Volume

def rolling (volume : ℤ → ℚ) (t : ℤ) : Sample := { ts := t, vol24h := volume t - volume (t - 86400) }

def LastOfDay (times : List ℤ) (day t : ℤ) : Prop :=
  t ∈ times ∧ dayStartSec t = day ∧ ∀ other ∈ times, dayStartSec other = day → other ≤ t

def MeasuresDay (volume : ℤ → ℚ) (times : List ℤ) (entry : ℤ × ℚ≥0) : Prop :=
  ∃ t₁ t₂, LastOfDay times (entry.1 - 86400) t₁ ∧ LastOfDay times entry.1 t₂ ∧
    |entry.2 - (volume t₂ - volume t₁)| ≤ |volume (t₂ - 86400) - volume t₁|

/-- With samples a day or more apart nothing was traded in the day before the first; with less, at most half of that day's
volume was traded before the drift. -/
def DriftCovers (volume : ℤ → ℚ) (t₁ t₂ : ℤ) : Prop :=
  (t₁ + 86400 ≤ t₂ → volume t₁ = volume (t₁ - 86400)) ∧
    (t₂ < t₁ + 86400 → volume (t₂ - 86400) - volume (t₁ - 86400) ≤ volume t₁ - volume (t₂ - 86400))

def lastByDay (samples : List Sample) : InsertionMap ℤ Sample :=
  samples.foldl (fun lastByDay s => if s.vol24h < 0 then lastByDay else lastByDay.set (s.ts / 86400 * 86400) s) .empty

theorem lastOfDay_concat {times : List ℤ} {last day t : ℤ} (latest : ∀ other ∈ times, other ≤ last) :
    LastOfDay (times ++ [last]) day t ↔ if day = dayStartSec last then t = last else LastOfDay times day t := by
  split
  · rename_i same
    constructor
    · rintro ⟨inside, -, most⟩
      have above := most last (by simp) same.symm
      rcases List.mem_append.mp inside with old | new
      · exact le_antisymm (latest t old) above
      · exact List.mem_singleton.mp new
    · rintro rfl
      refine ⟨by simp, same.symm, fun other inside _ => ?_⟩
      rcases List.mem_append.mp inside with old | new
      · exact latest other old
      · exact (List.mem_singleton.mp new).le
  · rename_i different
    constructor
    · rintro ⟨inside, ofDay, most⟩
      rcases List.mem_append.mp inside with old | new
      · exact ⟨old, ofDay, fun other member => most other (List.mem_append_left _ member)⟩
      · rw [List.mem_singleton.mp new] at ofDay
        exact absurd ofDay.symm different
    · rintro ⟨inside, ofDay, most⟩
      refine ⟨List.mem_append_left _ inside, ofDay, fun other member ofDayToo => ?_⟩
      rcases List.mem_append.mp member with old | new
      · exact most other old ofDayToo
      · rw [List.mem_singleton.mp new] at ofDayToo
        exact absurd ofDayToo.symm different

theorem get?_lastByDay {volume : ℤ → ℚ} (monotone : Monotone volume) {times : List ℤ} (ascending : times.Pairwise (· ≤ ·))
    {day : ℤ} {sample : Sample} :
    (lastByDay (times.map (rolling volume))).get? day = some sample ↔ ∃ t, LastOfDay times day t ∧ sample = rolling volume t := by
  induction times using List.reverseRecOn with
  | nil => simp [lastByDay, LastOfDay, InsertionMap.empty, InsertionMap.get?]
  | append_singleton times last ih =>
    obtain ⟨before, -, latest⟩ := List.pairwise_append.mp ascending
    have counted : ¬ (rolling volume last).vol24h < 0 := by
      have grows : volume (last - 86400) ≤ volume last := monotone (by omega)
      simp only [rolling]
      linarith
    have stored : lastByDay ((times ++ [last]).map (rolling volume)) =
        (lastByDay (times.map (rolling volume))).set (dayStartSec last) (rolling volume last) := by
      simp only [lastByDay, List.map_append, List.map_cons, List.map_nil, List.foldl_append, List.foldl_cons, List.foldl_nil]
      rw [if_neg counted]
      rfl
    rw [stored, InsertionMap.get?_set]
    simp only [lastOfDay_concat fun other inside => latest other inside last (by simp)]
    split
    · simp [eq_comm]
    · exact ih before

theorem neighbours_of_gap {days : List ℤ} (sorted : days.Pairwise (· < ·)) {a b : ℤ} (first : a ∈ days) (second : b ∈ days)
    (below : a < b) (gap : ∀ c ∈ days, ¬ (a < c ∧ c < b)) : (a, b) ∈ days.zip days.tail := by
  induction days with
  | nil => cases first
  | cons head rest ih =>
    obtain ⟨least, others⟩ := List.pairwise_cons.mp sorted
    rcases List.mem_cons.mp second with rfl | later
    · rcases List.mem_cons.mp first with same | inside
      · omega
      · exact absurd (least a inside) (by omega)
    · cases rest with
      | nil => cases later
      | cons next tail =>
        rcases List.mem_cons.mp first with rfl | inside
        · have bound : b = next := by
            rcases List.mem_cons.mp later with same | farther
            · exact same
            · have above := (List.pairwise_cons.mp others).1 b farther
              exact absurd ⟨least next (by simp), above⟩ (gap next (by simp))
          simp [bound]
        · have found := ih others inside later fun c member => gap c (List.mem_cons_of_mem _ member)
          exact List.mem_cons_of_mem _ found

section Entries

variable {volume : ℤ → ℚ} {times : List ℤ} {day : ℤ} {vol : ℚ≥0}

section

variable (monotone : Monotone volume)
include monotone

theorem mem_days (ascending : times.Pairwise (· ≤ ·)) :
    day ∈ ((lastByDay (times.map (rolling volume))).entries.map Prod.fst) ↔ ∃ t, LastOfDay times day t := by
  constructor
  · intro inside
    obtain ⟨⟨key, sample⟩, member, rfl⟩ := List.mem_map.mp inside
    obtain ⟨t, last, -⟩ := (get?_lastByDay monotone ascending).mp (InsertionMap.mem_entries.mp member)
    exact ⟨t, last⟩
  · rintro ⟨t, last⟩
    have found := (get?_lastByDay monotone ascending).mpr ⟨t, last, rfl⟩
    exact List.mem_map.mpr ⟨_, InsertionMap.mem_entries.mpr found, rfl⟩

theorem mem_daily (ascending : times.Pairwise (· ≤ ·)) :
    (day, vol) ∈ dailyFromDayEndSamples (times.map (rolling volume)) ↔
      ∃ t₁ t₂, LastOfDay times (day - 86400) t₁ ∧ LastOfDay times day t₂ ∧
        (vol : ℚ) = (volume t₂ - volume (t₂ - 86400)) - (volume t₁ - volume (t₁ - 86400)) := by
  set last := lastByDay (times.map (rolling volume)) with lastEq
  have folded : (times.map (rolling volume)).foldl
      (fun lastByDay s => if s.vol24h < 0 then lastByDay else lastByDay.set (s.ts / 86400 * 86400) s) .empty = last := rfl
  unfold dailyFromDayEndSamples
  dsimp only
  rw [folded, List.mem_filterMap]
  constructor
  · rintro ⟨⟨before, after⟩, -, entry⟩
    dsimp only at entry
    split at entry
    · rename_i a b readA readB
      obtain ⟨t₁, last₁, rfl⟩ := (get?_lastByDay monotone ascending).mp readA
      obtain ⟨t₂, last₂, rfl⟩ := (get?_lastByDay monotone ascending).mp readB
      split at entry
      · cases entry
      · rename_i apart
        split at entry
        · have pair := Option.some.inj entry
          have ofEntry : after = day := congrArg Prod.fst pair
          have same : before = day - 86400 := by omega
          have value := congrArg (fun entry : ℤ × ℚ≥0 => (entry.2 : ℚ)) pair
          rw [← same]
          exact ⟨t₁, t₂, last₁, ofEntry ▸ last₂, value.symm⟩
        · cases entry
    · cases entry
  · rintro ⟨t₁, t₂, last₁, last₂, value⟩
    refine ⟨(day - 86400, day), ?_, ?_⟩
    · have sorted : ((last.entries.map Prod.fst).mergeSort fun a b => a ≤ b).Pairwise (· < ·) := by
        refine List.Pairwise.imp₂ (fun a b below apart => lt_of_le_of_ne below apart) (List.pairwise_mergeSort' (· ≤ ·) _) ?_
        exact (List.mergeSort_perm _ _).nodup_iff.mpr last.apart
      apply neighbours_of_gap sorted
      · exact List.mem_mergeSort.mpr ((mem_days monotone ascending).mpr ⟨t₁, last₁⟩)
      · exact List.mem_mergeSort.mpr ((mem_days monotone ascending).mpr ⟨t₂, last₂⟩)
      · omega
      · rintro c inside ⟨above, below⟩
        obtain ⟨t, -, ofDay, -⟩ := (mem_days monotone ascending).mp (List.mem_mergeSort.mp inside)
        have start := last₂.2.1
        simp only [dayStartSec, DAY_SECONDS] at ofDay start
        omega
    · have readA := (get?_lastByDay monotone ascending).mpr ⟨t₁, last₁, rfl⟩
      have readB := (get?_lastByDay monotone ascending).mpr ⟨t₂, last₂, rfl⟩
      rw [← lastEq] at readA readB
      have measured : 0 ≤ (rolling volume t₂).vol24h - (rolling volume t₁).vol24h := by
        simp only [rolling]
        rw [← value]
        exact vol.2
      simp only [readA, readB]
      rw [if_neg (by omega), dif_pos measured]
      have same : (⟨(rolling volume t₂).vol24h - (rolling volume t₁).vol24h, measured⟩ : ℚ≥0) = vol := NNRat.coe_injective value.symm
      rw [same]

theorem miss_le_drift {t₁ t₂ : ℤ} (later : t₁ ≤ t₂) :
    |((volume t₂ - volume (t₂ - 86400)) - (volume t₁ - volume (t₁ - 86400))) - (volume t₂ - volume t₁)| ≤
      |volume (t₂ - 86400) - volume t₁| ↔ DriftCovers volume t₁ t₂ := by
  -- the entry misses what was traded from the start of the first window to the start of the second
  have miss : |((volume t₂ - volume (t₂ - 86400)) - (volume t₁ - volume (t₁ - 86400))) - (volume t₂ - volume t₁)| =
      volume (t₂ - 86400) - volume (t₁ - 86400) := by
    have starts : volume (t₁ - 86400) ≤ volume (t₂ - 86400) := monotone (by omega)
    rw [abs_of_nonpos (by linarith)]
    linarith
  rw [miss]
  by_cases slow : t₁ + 86400 ≤ t₂
  · have ahead : volume t₁ ≤ volume (t₂ - 86400) := monotone (by omega)
    have day : volume (t₁ - 86400) ≤ volume t₁ := monotone (by omega)
    rw [abs_of_nonneg (by linarith)]
    constructor
    · exact fun bound => ⟨fun _ => by linarith, fun quick => by omega⟩
    · intro covers
      have quiet := covers.1 slow
      linarith
  · have behind : volume (t₂ - 86400) ≤ volume t₁ := monotone (by omega)
    rw [abs_of_nonpos (by linarith)]
    constructor
    · exact fun bound => ⟨fun far => absurd far slow, fun _ => by linarith⟩
    · intro covers
      have half := covers.2 (by omega)
      linarith

theorem measuresDay_iff {t₁ t₂ : ℤ} (last₁ : LastOfDay times (day - 86400) t₁)
    (last₂ : LastOfDay times day t₂) (value : (vol : ℚ) = (volume t₂ - volume (t₂ - 86400)) - (volume t₁ - volume (t₁ - 86400))) :
    MeasuresDay volume times (day, vol) ↔ DriftCovers volume t₁ t₂ := by
  have later : t₁ ≤ t₂ := by
    have starts := last₁.2.1
    have ends := last₂.2.1
    simp only [dayStartSec, DAY_SECONDS] at starts ends
    omega
  rw [← miss_le_drift monotone later, ← value]
  constructor
  · rintro ⟨s₁, s₂, other₁, other₂, bound⟩
    have same₁ : s₁ = t₁ := le_antisymm (last₁.2.2 s₁ other₁.1 other₁.2.1) (other₁.2.2 t₁ last₁.1 last₁.2.1)
    have same₂ : s₂ = t₂ := le_antisymm (last₂.2.2 s₂ other₂.1 other₂.2.1) (other₂.2.2 t₂ last₂.1 last₂.2.1)
    rw [← same₁, ← same₂]
    exact bound
  · exact fun bound => ⟨t₁, t₂, last₁, last₂, bound⟩

/-- Every entry measures its day if and only if, for the last samples of any two consecutive days whose rolling volume did not
fall, the drift covers what was traded between the starts of their windows. -/
theorem daily_measures (ascending : times.Pairwise (· ≤ ·)) :
    (∀ entry ∈ dailyFromDayEndSamples (times.map (rolling volume)), MeasuresDay volume times entry) ↔
      ∀ day t₁ t₂, LastOfDay times (day - 86400) t₁ → LastOfDay times day t₂ →
        volume t₁ - volume (t₁ - 86400) ≤ volume t₂ - volume (t₂ - 86400) → DriftCovers volume t₁ t₂ := by
  constructor
  · intro measures day t₁ t₂ last₁ last₂ grew
    let vol : ℚ≥0 := ⟨_, sub_nonneg.mpr grew⟩
    have entry : (day, vol) ∈ dailyFromDayEndSamples (times.map (rolling volume)) :=
      (mem_daily monotone ascending).mpr ⟨t₁, t₂, last₁, last₂, rfl⟩
    exact (measuresDay_iff monotone last₁ last₂ rfl).mp (measures _ entry)
  · rintro covers ⟨day, vol⟩ entry
    obtain ⟨t₁, t₂, last₁, last₂, value⟩ := (mem_daily monotone ascending).mp entry
    have grew : volume t₁ - volume (t₁ - 86400) ≤ volume t₂ - volume (t₂ - 86400) := by
      have positive : 0 ≤ (vol : ℚ) := vol.2
      linarith
    exact (measuresDay_iff monotone last₁ last₂ value).mpr (covers day t₁ t₂ last₁ last₂ grew)

end

end Entries

def fromFirstSample (t : ℤ) : ℚ := ((max 0 (t - 86399) : ℤ) : ℚ)

theorem daily_measures_fromFirstSample :
    Monotone fromFirstSample ∧ ∀ entry ∈ dailyFromDayEndSamples ([86399, 172799].map (rolling fromFirstSample)),
      MeasuresDay fromFirstSample [86399, 172799] entry := by
  have monotone : Monotone fromFirstSample := fun a b below => by
    simp only [fromFirstSample, Int.cast_le]
    omega
  refine ⟨monotone, (daily_measures monotone (by simp)).mpr ?_⟩
  rintro day t₁ t₂ ⟨inside₁, ofDay₁, -⟩ ⟨inside₂, ofDay₂, -⟩ -
  simp only [dayStartSec, DAY_SECONDS] at ofDay₁ ofDay₂
  have first : t₁ = 86399 := by
    rcases List.mem_pair.mp inside₁ with here | here <;> rcases List.mem_pair.mp inside₂ with there | there <;> omega
  have second : t₂ = 172799 := by
    rcases List.mem_pair.mp inside₂ with there | there <;> omega
  subst first second
  exact ⟨fun _ => by simp [fromFirstSample], fun quick => by omega⟩

/-- A constant rate, sampled exactly a day apart, gives a day of no volume. -/
theorem daily_misses : ¬ ∀ (volume : ℤ → ℚ) (times : List ℤ), Monotone volume → times.Pairwise (· ≤ ·) →
    ∀ entry ∈ dailyFromDayEndSamples (times.map (rolling volume)), MeasuresDay volume times entry := by
  intro measures
  have monotone : Monotone (fun t : ℤ => (t : ℚ)) := fun a b below => Int.cast_le.mpr below
  have ascending : [86399, 172799].Pairwise (fun a b : ℤ => a ≤ b) := by simp
  have last₁ : LastOfDay [86399, 172799] (86400 - 86400) 86399 := by
    refine ⟨by simp, by decide, ?_⟩
    decide
  have last₂ : LastOfDay [86399, 172799] 86400 172799 := by
    refine ⟨by simp, by decide, ?_⟩
    decide
  have value : ((0 : ℚ≥0) : ℚ) =
      (((172799 : ℤ) : ℚ) - ((172799 - 86400 : ℤ) : ℚ)) - (((86399 : ℤ) : ℚ) - ((86399 - 86400 : ℤ) : ℚ)) := by
    norm_num
  have entry := (mem_daily monotone ascending).mpr ⟨86399, 172799, last₁, last₂, value⟩
  have covers := (measuresDay_iff monotone last₁ last₂ value).mp (measures _ _ monotone ascending _ entry)
  have quiet := covers.1 (by omega)
  norm_num at quiet

end LpTerminal.Volume
