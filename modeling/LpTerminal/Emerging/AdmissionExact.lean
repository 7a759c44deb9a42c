import LpTerminal.Emerging.AdmissionQueue
import Mathlib.Data.Prod.Lex

/-!
What admission promises, pins, capacity and the order of the queue, and when it keeps it.
-/

namespace LpTerminal.Emerging.Admission

variable {Key : Type*}

theorem drop_keep {rows : List (LedgerRow Key)} {nowSec maxAgeDays capacity : ℤ} :
    (unpinnedTracked rows nowSec maxAgeDays).drop (keep rows nowSec maxAgeDays capacity) =
      (unpinnedTracked rows nowSec maxAgeDays).drop (free rows nowSec maxAgeDays capacity) := by
  rw [keep]
  rcases le_total (unpinnedTracked rows nowSec maxAgeDays).length (free rows nowSec maxAgeDays capacity) with short | enough
  · rw [min_eq_left short, List.drop_length, List.drop_eq_nil_of_le short]
  · rw [min_eq_right enough]

def LedgerRow.queuePosition (row : LedgerRow Key) : ℕ ×ₗ ℤ ×ₗ Key :=
  toLex (if row.reason = some .quietDemoted then 1 else 0, toLex (row.firstSeenAt, row.poolKey))

theorem position_inj {w e : LedgerRow Key} (same : w.queuePosition = e.queuePosition) : w.poolKey = e.poolKey := by
  simp only [LedgerRow.queuePosition, EmbeddingLike.apply_eq_iff_eq, Prod.mk.injEq] at same
  exact same.2.2

theorem waits_transition {row : LedgerRow Key} {seenAt maxAgeDays : ℤ} {state : ObservationState} {later : ℤ}
    (waits : row.pinned seenAt = false) (after : seenAt ≤ later) (young : ageTransition row later maxAgeDays ≠ .aged) :
    Waits later maxAgeDays (row.transition state (some .capacityDeferred) none) := by
  refine ⟨young, rfl, ?_⟩
  unfold LedgerRow.pinned at waits ⊢
  cases expires : row.pinnedUntil with
  | none => simp [LedgerRow.transition, expires]
  | some t =>
    simp only [LedgerRow.transition, expires, Option.any_some, decide_eq_false_iff_not] at waits ⊢
    omega

theorem pinned_le {ledger : Ledger Key} {seenAt maxAgeDays : ℤ} :
    (pinnedRows (listEmergingActive ledger) seenAt maxAgeDays).length ≤
      ((listEmergingActive ledger).filter (·.pinned seenAt)).length := by
  rw [pinnedRows, young, List.filter_comm]
  exact List.length_filter_le _ _

variable [LinearOrder Key]

/-- The next plan, from the rows of the ledger and any new ones, does not admit a row that has lost its rank before one that
waited already and still does. -/
def KeepsQueue (seenAt maxAgeDays : ℤ) (before after : List (LedgerRow Key)) : Prop :=
  ∀ w ∈ before, Waits seenAt maxAgeDays w → ∀ e ∈ before, e.admittedRank ≠ none →
    ∀ w' ∈ after, w'.poolKey = w.poolKey → w'.admittedRank = none →
    ∀ e' ∈ after, e'.poolKey = e.poolKey → e'.admittedRank = none →
    ∀ (later capacity : ℤ) (rows : List (LedgerRow Key)), seenAt ≤ later → (rows.map LedgerRow.poolKey).Nodup →
      after ⊆ rows → ageTransition w' later maxAgeDays ≠ .aged →
      let admits := (planAdmission rows later maxAgeDays capacity).admits
      e.poolKey ∈ admits → admits.idxOf w.poolKey < admits.idxOf e.poolKey

section Promise

variable (quietDemoteSeconds seenAt maxAgeDays capacity : ℤ) (traded : List Key) (ledger : Ledger Key)

def afterSweep : List (LedgerRow Key) :=
  listEmergingActive (runAdmission quietDemoteSeconds seenAt maxAgeDays capacity traded ledger)

def LedgerRow.tracked (nowSec : ℤ) (row : LedgerRow Key) : Bool := row.pinned nowSec || row.admittedRank.isSome

structure AdmissionLaw : Prop where
  /-- Every row is in one of the five groups, and in no other. -/
  partition :
    let active := listEmergingActive ledger
    let plan := planAdmission active seenAt maxAgeDays capacity
    ((pinnedRows active seenAt maxAgeDays ++ kept active seenAt maxAgeDays capacity).map LedgerRow.poolKey ++
      plan.admits ++ plan.defer ++ plan.ageOut).Perm (active.map LedgerRow.poolKey)
  pins : ∀ row ∈ listEmergingActive ledger, row.pinned seenAt →
    row.poolKey ∉ (planAdmission (listEmergingActive ledger) seenAt maxAgeDays capacity).defer ∧
      row.poolKey ∉ (planAdmission (listEmergingActive ledger) seenAt maxAgeDays capacity).ageOut
  bounded :
    let most := max capacity ((listEmergingActive ledger).filter (·.pinned seenAt)).length
    (planAdmission (listEmergingActive ledger) seenAt maxAgeDays capacity).capacity ≤ most ∧
      ((afterSweep quietDemoteSeconds seenAt maxAgeDays capacity traded ledger).filter (·.tracked seenAt)).length ≤ most
  queue : KeepsQueue seenAt maxAgeDays (listEmergingActive ledger)
    (afterSweep quietDemoteSeconds seenAt maxAgeDays capacity traded ledger)

end Promise

section Order

variable {rows : List (LedgerRow Key)} {nowSec maxAgeDays capacity : ℤ} {row w e : LedgerRow Key}

def Crowded (rows : List (LedgerRow Key)) (nowSec maxAgeDays capacity : ℤ) (row : LedgerRow Key) : Prop :=
  row ∈ slotRows rows nowSec maxAgeDays ∧ capacity ≤ (pinnedRows rows nowSec maxAgeDays).length +
    ((slotRows rows nowSec maxAgeDays).filter fun other =>
      StableSort.Ahead rankOrder (slotRows rows nowSec maxAgeDays) other row).length

/-- `w` was seen first, or in one second with `e` and has the smaller key. -/
def SeenFirst (w e : LedgerRow Key) : Prop := toLex (w.firstSeenAt, w.poolKey) < toLex (e.firstSeenAt, e.poolKey)

theorem crowded_iff (distinct : (rows.map LedgerRow.poolKey).Nodup) :
    row ∈ (unpinnedTracked rows nowSec maxAgeDays).drop (keep rows nowSec maxAgeDays capacity) ↔
      Crowded rows nowSec maxAgeDays capacity row := by
  have trans : ∀ a b c : LedgerRow Key, rankOrder a b → rankOrder b c → rankOrder a c := fun a b c => by
    simp only [rankOrder, decide_eq_true_eq]
    exact le_trans
  have total : ∀ a b : LedgerRow Key, rankOrder a b || rankOrder b a := fun a b => by
    simpa [rankOrder] using le_total _ _
  have nodup : (slotRows rows nowSec maxAgeDays).Nodup := ((distinct.of_map _).filter _).filter _ |>.filter _
  rw [drop_keep, unpinnedTracked, StableSort.mem_drop_mergeSort_iff trans total nodup, Crowded, free]
  refine and_congr_right fun _ => ?_
  omega

theorem queueOrder_iff {a b : LedgerRow Key} : queueOrder a b ↔ a.queuePosition ≤ b.queuePosition := by
  simp only [queueOrder, LedgerRow.queuePosition, Prod.Lex.toLex_le_toLex]
  by_cases level : (if a.reason = some .quietDemoted then 1 else 0) = if b.reason = some .quietDemoted then 1 else 0
  · by_cases tie : a.firstSeenAt = b.firstSeenAt
    · simp [level, tie]
    · simp [level, tie, lt_iff_le_and_ne]
  · simp [level, lt_iff_le_and_ne]

theorem admits_order (distinct : (rows.map LedgerRow.poolKey).Nodup) (first : w ∈ rows) (second : e ∈ rows)
    (wWaits : Waits nowSec maxAgeDays w) (listed : e.poolKey ∈ (planAdmission rows nowSec maxAgeDays capacity).admits) :
    (planAdmission rows nowSec maxAgeDays capacity).admits.idxOf w.poolKey <
        (planAdmission rows nowSec maxAgeDays capacity).admits.idxOf e.poolKey ↔
      w.queuePosition < e.queuePosition := by
  have shown := (mem_admits distinct second).mp listed
  have waits := mem_waitingRows.mpr ⟨first, wWaits⟩
  have also := mem_waitingRows.mpr (mem_waiting.mp (List.mem_of_mem_take shown))
  have alone : ∀ row ∈ rows, ∀ y ∈ (waiting rows nowSec maxAgeDays).take (openings rows nowSec maxAgeDays capacity),
      y.poolKey = row.poolKey → y = row := fun row inside y member same =>
    List.inj_on_of_nodup_map distinct (mem_waiting.mp (List.mem_of_mem_take member)).1 inside same
  have trans : ∀ a b c : LedgerRow Key, queueOrder a b → queueOrder b c → queueOrder a c := fun a b c => by
    simp only [queueOrder_iff]
    exact le_trans
  have total : ∀ a b : LedgerRow Key, queueOrder a b || queueOrder b a := fun a b => by
    simpa [queueOrder_iff] using le_total _ _
  have nodup : (waitingRows rows nowSec maxAgeDays).Nodup := ((distinct.of_map _).filter _).filter _
  simp only [planAdmission]
  rw [StableSort.idxOf_map (alone w first), StableSort.idxOf_map (alone e second), StableSort.idxOf_lt_take shown, waiting,
    StableSort.idxOf_lt_iff trans total nodup waits also, StableSort.Ahead, queueOrder_iff, queueOrder_iff]
  constructor
  · rintro ⟨below, tie⟩
    refine below.lt_of_ne fun same => ?_
    have equal := List.inj_on_of_nodup_map distinct first second (position_inj same)
    have early := tie same.ge
    rw [equal] at early
    exact lt_irrefl _ early
  · exact fun below => ⟨below.le, fun back => absurd back below.not_ge⟩

theorem seenFirst_iff (wFresh : w.reason ≠ some .quietDemoted) (eFresh : e.reason ≠ some .quietDemoted) :
    w.queuePosition < e.queuePosition ↔ SeenFirst w e := by
  simp [LedgerRow.queuePosition, SeenFirst, wFresh, eFresh, Prod.Lex.toLex_lt_toLex]

theorem fresh_first (wFresh : w.reason ≠ some .quietDemoted) (demoted : e.reason = some .quietDemoted) :
    w.queuePosition < e.queuePosition := by
  simp [LedgerRow.queuePosition, wFresh, demoted, Prod.Lex.toLex_lt_toLex]

theorem openings_of_crowded (distinct : (rows.map LedgerRow.poolKey).Nodup) (crowded : Crowded rows nowSec maxAgeDays capacity row) :
    openings rows nowSec maxAgeDays capacity = 0 := by
  have left := List.length_pos_of_mem ((crowded_iff distinct).mpr crowded)
  rw [List.length_drop] at left
  simp only [openings, keep] at left ⊢
  omega

theorem admits_all (distinct : (rows.map LedgerRow.poolKey).Nodup) (inside : row ∈ rows) (waits : Waits nowSec maxAgeDays row) :
    row.poolKey ∈ (planAdmission rows nowSec maxAgeDays ((pinnedRows rows nowSec maxAgeDays).length + rows.length)).admits := by
  have unpinned : (slotRows rows nowSec maxAgeDays ++ waitingRows rows nowSec maxAgeDays).length = _ := unpinned_perm.length_eq
  have part : ((young rows nowSec maxAgeDays).filter fun row => !row.pinned nowSec).length ≤ rows.length :=
    (List.length_filter_le _ _).trans (List.length_filter_le _ _)
  have slots := (List.mergeSort_perm (slotRows rows nowSec maxAgeDays) rankOrder).length_eq
  have queue := (List.mergeSort_perm (waitingRows rows nowSec maxAgeDays) queueOrder).length_eq
  rw [mem_admits distinct inside, List.take_of_length_le]
  · exact mem_waiting.mpr ⟨inside, waits⟩
  · rw [List.length_append] at unpinned
    simp only [waiting, openings, keep, free, unpinnedTracked]
    omega

end Order

section Sweep

variable {quietDemoteSeconds seenAt maxAgeDays capacity : ℤ} {traded : List Key} {ledger : Ledger Key} {row after w e : LedgerRow Key}

theorem mem_afterSweep : after ∈ afterSweep quietDemoteSeconds seenAt maxAgeDays capacity traded ledger ↔
    activeByKey (runAdmission quietDemoteSeconds seenAt maxAgeDays capacity traded ledger).rows after.poolKey = some after ∧
      after.state ≠ .agedOut := by
  rw [activeByKey_eq_some (Ledger.distinct _), afterSweep, listEmergingActive, List.mem_filter, decide_eq_true_eq]
  simp

theorem planned_active {poolKey : Key} (absent : poolKey ∉ (listEmergingActive ledger).map LedgerRow.poolKey) :
    activeByKey (runAdmission quietDemoteSeconds seenAt maxAgeDays capacity traded ledger).rows poolKey =
      activeByKey ledger.rows poolKey := by
  have groups : poolKey ∉ _ ++ (planAdmission (listEmergingActive ledger) seenAt maxAgeDays capacity).ageOut := fun listed =>
    absent (partition_perm.mem_iff.mp listed)
  simp only [List.mem_append, not_or] at groups
  obtain ⟨⟨⟨-, notAdmitted⟩, notDeferred⟩, notAged⟩ := groups
  unfold runAdmission
  dsimp only
  rw [skipped _ _ defer_frame notDeferred, skipped _ _ admit_frame notAdmitted, skipped _ _ ageOut_frame notAged,
    fold_frame LedgerRow.poolKey demote_frame absent]

theorem traces_back (inside : after ∈ afterSweep quietDemoteSeconds seenAt maxAgeDays capacity traded ledger) :
    ∃ row ∈ listEmergingActive ledger, row.poolKey = after.poolKey := by
  by_contra absent
  obtain ⟨found, active⟩ := mem_afterSweep.mp inside
  rw [planned_active fun listed => absent (List.mem_map.mp listed), activeByKey_eq_some ledger.distinct] at found
  exact absent ⟨after, List.mem_filter.mpr ⟨found.1, by simpa using active⟩, rfl⟩

theorem after_of_deferred (inside : row ∈ listEmergingActive ledger)
    (listed : row.poolKey ∈ (planAdmission (listEmergingActive ledger) seenAt maxAgeDays capacity).defer)
    (kept : after ∈ afterSweep quietDemoteSeconds seenAt maxAgeDays capacity traded ledger) (own : after.poolKey = row.poolKey) :
    ∃ state, after = row.transition state (some .capacityDeferred) none := by
  obtain ⟨found, -⟩ := mem_afterSweep.mp kept
  obtain ⟨state, written, -⟩ := run_of_deferred inside listed
  rw [own, written, Option.some_inj] at found
  exact ⟨state, found.symm⟩

theorem deferred_after (inside : row ∈ listEmergingActive ledger)
    (listed : row.poolKey ∈ (planAdmission (listEmergingActive ledger) seenAt maxAgeDays capacity).defer) :
    ∃ state, row.transition state (some .capacityDeferred) none ∈
      afterSweep quietDemoteSeconds seenAt maxAgeDays capacity traded ledger := by
  obtain ⟨state, written, active⟩ := run_of_deferred inside listed
  exact ⟨state, mem_afterSweep.mpr ⟨written, active⟩⟩

theorem tracked_planned (kept : after ∈ afterSweep quietDemoteSeconds seenAt maxAgeDays capacity traded ledger)
    (tracked : after.tracked seenAt) :
    after.poolKey ∈ (pinnedRows (listEmergingActive ledger) seenAt maxAgeDays ++
      Admission.kept (listEmergingActive ledger) seenAt maxAgeDays capacity).map LedgerRow.poolKey ++
        (planAdmission (listEmergingActive ledger) seenAt maxAgeDays capacity).admits := by
  obtain ⟨row, inside, own⟩ := traces_back kept
  have listed : row.poolKey ∈ _ ++ (planAdmission (listEmergingActive ledger) seenAt maxAgeDays capacity).ageOut :=
    partition_perm.mem_iff.mpr (List.mem_map_of_mem inside)
  rw [own, List.mem_append, List.mem_append] at listed
  rcases listed with (counted | deferred) | aged
  · exact counted
  · rw [← own] at deferred
    obtain ⟨state, rfl⟩ := after_of_deferred inside deferred kept own.symm
    have free : row.pinned seenAt = false := by
      rcases (mem_defer active_distinct inside).mp deferred with late | crowded
      · exact (mem_waiting.mp (List.mem_of_mem_drop late)).2.2.2
      · exact (mem_unpinnedTracked.mp (List.mem_of_mem_drop crowded)).2.2.2
    simp only [LedgerRow.tracked, LedgerRow.transition, LedgerRow.pinned, Option.isSome_none, Bool.or_false] at tracked free
    rw [tracked] at free
    cases free
  · rw [← own, mem_ageOut active_distinct inside] at aged
    obtain ⟨found, active⟩ := mem_afterSweep.mp kept
    rw [← own] at found
    exact absurd (run_of_aged inside aged found) active

theorem tracked_le : ((afterSweep quietDemoteSeconds seenAt maxAgeDays capacity traded ledger).filter (·.tracked seenAt)).length ≤
    (planAdmission (listEmergingActive ledger) seenAt maxAgeDays capacity).capacity := by
  have distinct : (((afterSweep quietDemoteSeconds seenAt maxAgeDays capacity traded ledger).filter (·.tracked seenAt)).map
      LedgerRow.poolKey).Nodup := active_distinct.sublist (List.filter_sublist.map _)
  have part := List.subperm_of_subset distinct fun poolKey listed => by
    obtain ⟨after, member, rfl⟩ := List.mem_map.mp listed
    obtain ⟨kept, tracked⟩ := List.mem_filter.mp member
    exact tracked_planned kept tracked
  have counted := part.length_le
  simpa [planAdmission, Nat.add_assoc] using counted

theorem pins_iff : (∀ row ∈ listEmergingActive ledger, row.pinned seenAt →
      row.poolKey ∉ (planAdmission (listEmergingActive ledger) seenAt maxAgeDays capacity).defer ∧
        row.poolKey ∉ (planAdmission (listEmergingActive ledger) seenAt maxAgeDays capacity).ageOut) ↔
    ∀ row ∈ listEmergingActive ledger, row.pinned seenAt → ageTransition row seenAt maxAgeDays ≠ .aged := by
  refine forall₂_congr fun row inside => forall_congr' fun pinned => ?_
  rw [mem_ageOut active_distinct inside, mem_defer active_distinct inside]
  refine ⟨fun both => both.2, fun young => ⟨?_, young⟩⟩
  rintro (late | crowded)
  · have free := (mem_waiting.mp (List.mem_of_mem_drop late)).2.2.2
    simp [pinned] at free
  · have free := (mem_unpinnedTracked.mp (List.mem_of_mem_drop crowded)).2.2.2
    simp [pinned] at free

theorem lost_rank (inside : e ∈ listEmergingActive ledger) (ranked : e.admittedRank ≠ none)
    (kept : after ∈ afterSweep quietDemoteSeconds seenAt maxAgeDays capacity traded ledger) (own : after.poolKey = e.poolKey)
    (lost : after.admittedRank = none) :
    after.reason = some .quietDemoted ∨ Crowded (listEmergingActive ledger) seenAt maxAgeDays capacity e := by
  obtain ⟨found, active⟩ := mem_afterSweep.mp kept
  rw [own] at found
  have young : ageTransition e seenAt maxAgeDays ≠ .aged := fun aged => active (run_of_aged inside aged found)
  by_cases deferred : e.poolKey ∈ (planAdmission (listEmergingActive ledger) seenAt maxAgeDays capacity).defer
  · rcases (mem_defer active_distinct inside).mp deferred with late | crowded
    · exact absurd (mem_waiting.mp (List.mem_of_mem_drop late)).2.2.1 ranked
    · exact .inr ((crowded_iff active_distinct).mp crowded)
  · have notAdmitted : e.poolKey ∉ (planAdmission (listEmergingActive ledger) seenAt maxAgeDays capacity).admits := fun admitted =>
      ranked (mem_waiting.mp (List.mem_of_mem_take ((mem_admits active_distinct inside).mp admitted))).2.2.1
    rw [run_of_kept inside young notAdmitted deferred, Option.some_inj] at found
    subst found
    unfold demotedRow at lost ⊢
    split
    · exact .inl rfl
    · rename_i busy
      rw [if_neg busy] at lost
      exact absurd lost ranked

theorem waits_deferred (inside : w ∈ listEmergingActive ledger) (waits : Waits seenAt maxAgeDays w)
    (kept : after ∈ afterSweep quietDemoteSeconds seenAt maxAgeDays capacity traded ledger) (own : after.poolKey = w.poolKey)
    (still : after.admittedRank = none) :
    w.poolKey ∈ (planAdmission (listEmergingActive ledger) seenAt maxAgeDays capacity).defer := by
  have queued : w ∈ waiting (listEmergingActive ledger) seenAt maxAgeDays := mem_waiting.mpr ⟨inside, waits⟩
  rw [← List.take_append_drop (openings (listEmergingActive ledger) seenAt maxAgeDays capacity) (waiting _ _ _)] at queued
  rcases List.mem_append.mp queued with admitted | late
  · obtain ⟨found, -⟩ := mem_afterSweep.mp kept
    rw [own] at found
    exact absurd still (run_of_admitted inside ((mem_admits active_distinct inside).mpr admitted) found)
  · exact (mem_defer active_distinct inside).mpr (.inl late)

theorem queue_of_order
    (order : ∀ e, Crowded (listEmergingActive ledger) seenAt maxAgeDays capacity e →
      ∀ w ∈ listEmergingActive ledger, Waits seenAt maxAgeDays w → SeenFirst w e) :
    KeepsQueue seenAt maxAgeDays (listEmergingActive ledger)
      (afterSweep quietDemoteSeconds seenAt maxAgeDays capacity traded ledger) := by
  intro w inside waits e other ranked w' wKept wOwn wStill e' eKept eOwn lost later capacity' rows after
    distinct part young admits listed
  have deferred := waits_deferred inside waits wKept wOwn wStill
  obtain ⟨state, rfl⟩ := after_of_deferred inside deferred wKept wOwn
  rw [← eOwn] at listed
  rw [← wOwn, ← eOwn, admits_order distinct (part wKept) (part eKept) (waits_transition waits.2.2 after young) listed]
  rcases lost_rank other ranked eKept eOwn lost with demoted | crowded
  · exact fresh_first (by simp [LedgerRow.transition]) demoted
  · have listed' := (mem_defer active_distinct other).mpr (.inr ((crowded_iff active_distinct).mpr crowded))
    obtain ⟨state', rfl⟩ := after_of_deferred other listed' eKept eOwn
    rw [seenFirst_iff (by simp [LedgerRow.transition]) (by simp [LedgerRow.transition])]
    exact order e crowded w inside waits

theorem order_of_queue
    (queue : KeepsQueue seenAt maxAgeDays (listEmergingActive ledger)
      (afterSweep quietDemoteSeconds seenAt maxAgeDays capacity traded ledger))
    (crowded : Crowded (listEmergingActive ledger) seenAt maxAgeDays capacity e) (inside : w ∈ listEmergingActive ledger)
    (waits : Waits seenAt maxAgeDays w) : SeenFirst w e := by
  obtain ⟨other, eYoung, ranked, free⟩ := mem_slotRows.mp crowded.1
  have eDeferred := (mem_defer active_distinct other).mpr (.inr ((crowded_iff active_distinct).mpr crowded))
  have wDeferred : w.poolKey ∈ (planAdmission (listEmergingActive ledger) seenAt maxAgeDays capacity).defer := by
    rw [mem_defer active_distinct inside, openings_of_crowded active_distinct crowded]
    exact .inl (mem_waiting.mpr ⟨inside, waits⟩)
  obtain ⟨state, eKept⟩ := deferred_after other eDeferred
  obtain ⟨state', wKept⟩ := deferred_after inside wDeferred
  -- the next plan comes in the same second, with room for all
  have distinct : ((afterSweep quietDemoteSeconds seenAt maxAgeDays capacity traded ledger).map LedgerRow.poolKey).Nodup :=
    active_distinct
  have eWaits : Waits seenAt maxAgeDays (e.transition state (some .capacityDeferred) none) := waits_transition free le_rfl eYoung
  have wWaits : Waits seenAt maxAgeDays (w.transition state' (some .capacityDeferred) none) :=
    waits_transition waits.2.2 le_rfl waits.1
  have listed := admits_all distinct eKept eWaits
  have early := queue w inside waits e other (by simpa [Option.isSome_iff_ne_none] using ranked) _ wKept rfl rfl _ eKept rfl rfl
    seenAt _ _ le_rfl distinct (List.Subset.refl _) waits.1 listed
  have below := (admits_order distinct wKept eKept wWaits listed).mp early
  rwa [seenFirst_iff (by simp [LedgerRow.transition]) (by simp [LedgerRow.transition])] at below

/-- Pins and queue are kept if and only if no pinned row has aged and no crowded row was seen before one that waits. -/
theorem admission_exact (quietDemoteSeconds seenAt maxAgeDays capacity : ℤ) (traded : List Key) (ledger : Ledger Key) :
    AdmissionLaw quietDemoteSeconds seenAt maxAgeDays capacity traded ledger ↔
      (∀ row ∈ listEmergingActive ledger, row.pinned seenAt → ageTransition row seenAt maxAgeDays ≠ .aged) ∧
      ∀ e, Crowded (listEmergingActive ledger) seenAt maxAgeDays capacity e →
        ∀ w ∈ listEmergingActive ledger, Waits seenAt maxAgeDays w → SeenFirst w e := by
  constructor
  · intro law
    exact ⟨pins_iff.mp law.pins, fun e crowded w inside waits => order_of_queue law.queue crowded inside waits⟩
  · rintro ⟨young, order⟩
    have planned : ((planAdmission (listEmergingActive ledger) seenAt maxAgeDays capacity).capacity : ℤ) ≤ _ := capacity_le
    have pinned : (pinnedRows (listEmergingActive ledger) seenAt maxAgeDays).length ≤ _ := pinned_le
    have tracked : ((afterSweep quietDemoteSeconds seenAt maxAgeDays capacity traded ledger).filter _).length ≤ _ := tracked_le
    exact ⟨partition_perm, pins_iff.mpr young, ⟨by omega, by omega⟩, queue_of_order order⟩

end Sweep

def observed (poolKey : ℕ) (firstSeenAt : ℤ) (admittedRank : Option ℕ) (pinnedUntil : Option ℤ) : LedgerRow ℕ :=
  { poolKey, state := .queued, reason := none, poolCreatedAt := some 0, tokenCreatedAt := none, pinnedUntil, admittedRank, firstSeenAt }

def shrinking : Ledger ℕ := { rows := [observed 1 100 (some 1) none, observed 2 200 none none], distinct := by decide, nextRank := 1 }

def longPinned : Ledger ℕ := { rows := [observed 1 100 (some 1) (some 700000)], distinct := by decide, nextRank := 1 }

/-- The row that loses its slot is the first to be admitted again; a pinned row ages out. -/
theorem evicted_jumps : ¬ AdmissionLaw 21600 1000 7 0 [] shrinking ∧ ¬ AdmissionLaw 21600 604800 7 200 [] longPinned := by
  constructor
  · intro law
    have sorted : waiting (afterSweep 21600 1000 7 0 [] shrinking) 1000 7 =
        waitingRows (afterSweep 21600 1000 7 0 [] shrinking) 1000 7 := List.mergeSort_of_pairwise (by decide +kernel)
    have first : (planAdmission (afterSweep 21600 1000 7 0 [] shrinking) 1000 7 1).admits = [1] := by
      simp only [planAdmission, sorted]
      decide +kernel
    have early := law.queue (observed 2 200 none none) (by decide) (by decide)
      (observed 1 100 (some 1) none) (by decide) (by decide)
      ((observed 2 200 none none).transition .queued (some .capacityDeferred) none) (by decide +kernel) rfl rfl
      ((observed 1 100 (some 1) none).transition .queued (some .capacityDeferred) none) (by decide +kernel) rfl rfl
      1000 1 (afterSweep 21600 1000 7 0 [] shrinking) le_rfl (by decide +kernel) (List.Subset.refl _) (by decide)
    rw [first] at early
    exact absurd (early (by decide)) (by decide)
  · intro law
    have kept := (law.pins (observed 1 100 (some 1) (some 700000)) (by decide) (by decide)).2
    revert kept
    decide

end LpTerminal.Emerging.Admission
