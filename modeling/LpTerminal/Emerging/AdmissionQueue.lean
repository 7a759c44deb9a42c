import LpTerminal.Emerging.Admission
import Mathlib.Algebra.Order.Group.Multiset
import Mathlib.Tactic.Abel

/-!
What an admission plan does to the ledger, and which rows the next plan admits first.
-/

namespace LpTerminal.Emerging.Admission

variable {Key : Type*}

section Plan

variable {rows : List (LedgerRow Key)} {nowSec maxAgeDays capacity : ℤ} {row : LedgerRow Key}

theorem mem_slotRows : row ∈ slotRows rows nowSec maxAgeDays ↔
    row ∈ rows ∧ ageTransition row nowSec maxAgeDays ≠ .aged ∧ row.admittedRank.isSome ∧ row.pinned nowSec = false := by
  simp only [slotRows, trackingRows, young, List.mem_filter, Bool.or_eq_true, Bool.not_eq_true', decide_eq_true_eq]
  constructor
  · rintro ⟨⟨⟨inside, old⟩, pinned | ranked⟩, free⟩
    · simp [pinned] at free
    · exact ⟨inside, old, ranked, free⟩
  · exact fun ⟨inside, old, ranked, free⟩ => ⟨⟨⟨inside, old⟩, .inr ranked⟩, free⟩

def Waits (nowSec maxAgeDays : ℤ) (row : LedgerRow Key) : Prop :=
  ageTransition row nowSec maxAgeDays ≠ .aged ∧ row.admittedRank = none ∧ row.pinned nowSec = false

instance (row : LedgerRow Key) : Decidable (Waits nowSec maxAgeDays row) := inferInstanceAs (Decidable (_ ∧ _ ∧ _))

theorem mem_waitingRows : row ∈ waitingRows rows nowSec maxAgeDays ↔ row ∈ rows ∧ Waits nowSec maxAgeDays row := by
  simp only [waitingRows, young, Waits, List.mem_filter, decide_eq_true_eq, Bool.and_eq_true, Option.isNone_iff_eq_none,
    Bool.not_eq_true', and_assoc]

theorem drop_admitted (list : List (LedgerRow Key)) (n : ℕ) :
    list.drop ((list.take n).map LedgerRow.poolKey).length = list.drop n := by
  rw [List.length_map, List.length_take]
  rcases le_total n list.length with enough | short
  · rw [min_eq_left enough]
  · rw [min_eq_right short, List.drop_length, List.drop_eq_nil_of_le short]

theorem unpinned_perm : (slotRows rows nowSec maxAgeDays ++ waitingRows rows nowSec maxAgeDays).Perm
    ((young rows nowSec maxAgeDays).filter fun row => !row.pinned nowSec) := by
  have ranked : slotRows rows nowSec maxAgeDays =
      ((young rows nowSec maxAgeDays).filter fun row => !row.pinned nowSec).filter (·.admittedRank.isSome) := by
    rw [slotRows, trackingRows, List.filter_filter, List.filter_filter]
    refine List.filter_congr fun row _ => ?_
    cases row.pinned nowSec <;> simp
  have waits : waitingRows rows nowSec maxAgeDays =
      ((young rows nowSec maxAgeDays).filter fun row => !row.pinned nowSec).filter fun row => !row.admittedRank.isSome := by
    rw [waitingRows, List.filter_filter]
    refine List.filter_congr fun row _ => ?_
    cases row.admittedRank <;> simp
  rw [ranked, waits]
  exact List.filter_append_perm _ _

theorem mem_unpinnedTracked : row ∈ unpinnedTracked rows nowSec maxAgeDays ↔
    row ∈ rows ∧ ageTransition row nowSec maxAgeDays ≠ .aged ∧ row.admittedRank.isSome ∧ row.pinned nowSec = false := by
  rw [unpinnedTracked, (List.mergeSort_perm _ _).mem_iff, mem_slotRows]

theorem mem_keys (distinct : (rows.map LedgerRow.poolKey).Nodup) (inside : row ∈ rows) {part : List (LedgerRow Key)}
    (within : ∀ other ∈ part, other ∈ rows) :
    row.poolKey ∈ part.map LedgerRow.poolKey ↔ row ∈ part := by
  refine ⟨fun listed => ?_, List.mem_map_of_mem⟩
  obtain ⟨other, member, same⟩ := List.mem_map.mp listed
  rwa [← List.inj_on_of_nodup_map distinct (within other member) inside same]

theorem active_distinct {ledger : Ledger Key} : ((listEmergingActive ledger).map LedgerRow.poolKey).Nodup :=
  ledger.distinct.sublist (List.filter_sublist.map _)

variable [LinearOrder Key]

theorem mem_waiting : row ∈ waiting rows nowSec maxAgeDays ↔ row ∈ rows ∧ Waits nowSec maxAgeDays row := by
  rw [waiting, (List.mergeSort_perm _ _).mem_iff, mem_waitingRows]

theorem partition_perm : ((pinnedRows rows nowSec maxAgeDays ++ kept rows nowSec maxAgeDays capacity).map LedgerRow.poolKey ++
    (planAdmission rows nowSec maxAgeDays capacity).admits ++ (planAdmission rows nowSec maxAgeDays capacity).defer ++
    (planAdmission rows nowSec maxAgeDays capacity).ageOut).Perm (rows.map LedgerRow.poolKey) := by
  have queue := List.mergeSort_perm (waitingRows rows nowSec maxAgeDays) queueOrder
  have slots := List.mergeSort_perm (slotRows rows nowSec maxAgeDays) rankOrder
  have unpinned : (slotRows rows nowSec maxAgeDays ++ _).Perm _ := unpinned_perm
  have pinned : (pinnedRows rows nowSec maxAgeDays ++ _).Perm (young rows nowSec maxAgeDays) := List.filter_append_perm _ _
  have aged : (young rows nowSec maxAgeDays ++ rows.filter fun row => ageTransition row nowSec maxAgeDays = .aged).Perm rows := by
    simpa [young] using List.filter_append_perm (fun row => decide (ageTransition row nowSec maxAgeDays ≠ .aged)) rows
  rw [← List.take_append_drop (openings rows nowSec maxAgeDays capacity) (List.mergeSort _ _)] at queue
  rw [← List.take_append_drop (keep rows nowSec maxAgeDays capacity) (List.mergeSort _ _)] at slots
  simp only [planAdmission, drop_admitted, ← List.map_append]
  refine List.Perm.map _ ?_
  rw [← Multiset.coe_eq_coe] at queue slots unpinned pinned aged ⊢
  simp only [← Multiset.coe_add] at queue slots unpinned pinned aged ⊢
  rw [← aged, ← pinned, ← unpinned, ← queue, ← slots]
  simp only [kept, waiting, unpinnedTracked]
  abel

theorem planned_nodup (distinct : (rows.map LedgerRow.poolKey).Nodup) :
    ((pinnedRows rows nowSec maxAgeDays ++ kept rows nowSec maxAgeDays capacity).map LedgerRow.poolKey ++
      (planAdmission rows nowSec maxAgeDays capacity).admits ++ (planAdmission rows nowSec maxAgeDays capacity).defer ++
      (planAdmission rows nowSec maxAgeDays capacity).ageOut).Nodup :=
  partition_perm.nodup_iff.mpr distinct

theorem capacity_le :
    ((planAdmission rows nowSec maxAgeDays capacity).capacity : ℤ) ≤ max capacity (pinnedRows rows nowSec maxAgeDays).length := by
  simp only [planAdmission, List.length_map, kept, openings, List.length_take, keep, free]
  omega

section Members

variable (distinct : (rows.map LedgerRow.poolKey).Nodup) (inside : row ∈ rows)
include distinct inside

theorem mem_ageOut : row.poolKey ∈ (planAdmission rows nowSec maxAgeDays capacity).ageOut ↔
    ageTransition row nowSec maxAgeDays = .aged := by
  rw [planAdmission, mem_keys distinct inside fun _ => List.mem_of_mem_filter]
  simp [inside]

theorem mem_admits : row.poolKey ∈ (planAdmission rows nowSec maxAgeDays capacity).admits ↔
    row ∈ (waiting rows nowSec maxAgeDays).take (openings rows nowSec maxAgeDays capacity) :=
  mem_keys distinct inside fun _ member => (mem_waiting.mp (List.mem_of_mem_take member)).1

theorem mem_defer : row.poolKey ∈ (planAdmission rows nowSec maxAgeDays capacity).defer ↔
    row ∈ (waiting rows nowSec maxAgeDays).drop (openings rows nowSec maxAgeDays capacity) ∨
      row ∈ (unpinnedTracked rows nowSec maxAgeDays).drop (keep rows nowSec maxAgeDays capacity) := by
  simp only [planAdmission, drop_admitted, List.mem_append]
  refine or_congr (mem_keys distinct inside fun _ member => (mem_waiting.mp (List.mem_of_mem_drop member)).1)
    (mem_keys distinct inside fun _ member => (mem_unpinnedTracked.mp (List.mem_of_mem_drop member)).1)

end Members

section Apart

variable (distinct : (rows.map LedgerRow.poolKey).Nodup) {poolKey : Key}
include distinct

theorem not_defer_of_admits (taken : poolKey ∈ (planAdmission rows nowSec maxAgeDays capacity).admits) :
    poolKey ∉ (planAdmission rows nowSec maxAgeDays capacity).defer := fun later =>
  (List.nodup_append.mp (List.nodup_append.mp (planned_nodup distinct)).1).2.2 _ (List.mem_append_right _ taken) _ later rfl

theorem not_ageOut_of_admits (taken : poolKey ∈ (planAdmission rows nowSec maxAgeDays capacity).admits) :
    poolKey ∉ (planAdmission rows nowSec maxAgeDays capacity).ageOut := fun out =>
  (List.nodup_append.mp (planned_nodup distinct)).2.2 _ (List.mem_append_left _ (List.mem_append_right _ taken)) _ out rfl

theorem not_ageOut_of_defer (later : poolKey ∈ (planAdmission rows nowSec maxAgeDays capacity).defer) :
    poolKey ∉ (planAdmission rows nowSec maxAgeDays capacity).ageOut := fun out =>
  (List.nodup_append.mp (planned_nodup distinct)).2.2 _ (List.mem_append_right _ later) _ out rfl

theorem admits_nodup : (planAdmission rows nowSec maxAgeDays capacity).admits.Nodup :=
  (List.nodup_append.mp (List.nodup_append.mp (List.nodup_append.mp (planned_nodup distinct)).1).1).2.1

theorem defer_nodup : (planAdmission rows nowSec maxAgeDays capacity).defer.Nodup :=
  (List.nodup_append.mp (List.nodup_append.mp (planned_nodup distinct)).1).2.1

theorem ageOut_nodup : (planAdmission rows nowSec maxAgeDays capacity).ageOut.Nodup :=
  (List.nodup_append.mp (planned_nodup distinct)).2.1

end Apart

end Plan

section Application

variable [LinearOrder Key]

theorem activeByKey_eq_some {rows : List (LedgerRow Key)} (distinct : (rows.map LedgerRow.poolKey).Nodup) {row : LedgerRow Key}
    {poolKey : Key} : activeByKey rows poolKey = some row ↔ row ∈ rows ∧ row.poolKey = poolKey := by
  constructor
  · exact fun found => ⟨List.mem_of_find?_eq_some found, by simpa using List.find?_some found⟩
  · rintro ⟨inside, rfl⟩
    cases found : activeByKey rows row.poolKey with
    | none => simpa using List.find?_eq_none.mp found row inside
    | some other =>
      have own : other.poolKey = row.poolKey := by simpa using List.find?_some found
      rw [List.inj_on_of_nodup_map distinct (List.mem_of_find?_eq_some found) inside own]

theorem activeByKey_update (change : LedgerRow Key → LedgerRow Key) (keeps : ∀ row, (change row).poolKey = row.poolKey)
    (rows : List (LedgerRow Key)) (written poolKey : Key) :
    activeByKey (rows.map (·.update written change)) poolKey =
      if poolKey = written then (activeByKey rows poolKey).map change else activeByKey rows poolKey := by
  have same : ∀ row : LedgerRow Key, (row.update written change).poolKey = row.poolKey := fun row => by
    by_cases own : row.poolKey = written <;> simp [LedgerRow.update, own, keeps]
  rw [activeByKey, List.find?_map]
  simp only [Function.comp_def, same]
  cases found : rows.find? fun row => row.poolKey = poolKey with
  | none => simp [activeByKey, found]
  | some row =>
    have own : row.poolKey = poolKey := by simpa using List.find?_some found
    rw [activeByKey, found, Option.map_some, Option.map_some, LedgerRow.update, own]
    split <;> rfl

variable {ledger : Ledger Key} {poolKey : Key}

theorem transition_at (written : Key) (toState : ObservationState) (reason : Option ObservationReason) (admittedRank : Option ℕ) :
    activeByKey (recordEmergingTransition written toState reason admittedRank ledger).rows poolKey =
      if poolKey = written then (activeByKey ledger.rows poolKey).map (·.transition toState reason admittedRank)
      else activeByKey ledger.rows poolKey :=
  activeByKey_update (·.transition toState reason admittedRank) (fun _ => rfl) _ _ _

section Fold

variable {ι : Type*} {one : Ledger Key → ι → Ledger Key} (keyOf : ι → Key)

theorem fold_frame
    (frame : ∀ ledger i, keyOf i ≠ poolKey → activeByKey (one ledger i).rows poolKey = activeByKey ledger.rows poolKey)
    {items : List ι} (absent : poolKey ∉ items.map keyOf) :
    activeByKey (items.foldl one ledger).rows poolKey = activeByKey ledger.rows poolKey := by
  induction items generalizing ledger with
  | nil => rfl
  | cons first rest ih =>
    simp only [List.map_cons, List.mem_cons, not_or] at absent
    rw [List.foldl_cons, ih absent.2, frame _ _ (Ne.symm absent.1)]

theorem fold_once
    (frame : ∀ ledger i, keyOf i ≠ poolKey → activeByKey (one ledger i).rows poolKey = activeByKey ledger.rows poolKey)
    {items : List ι} (distinct : (items.map keyOf).Nodup) {i : ι} (inside : i ∈ items) (own : keyOf i = poolKey) :
    ∃ before, activeByKey before.rows poolKey = activeByKey ledger.rows poolKey ∧
      activeByKey (items.foldl one ledger).rows poolKey = activeByKey (one before i).rows poolKey := by
  induction items generalizing ledger with
  | nil => simp at inside
  | cons first rest ih =>
    obtain ⟨absent, distinct⟩ := List.nodup_cons.mp distinct
    rw [List.foldl_cons]
    rcases List.mem_cons.mp inside with rfl | later
    · exact ⟨ledger, rfl, fold_frame keyOf frame (own ▸ absent)⟩
    · have apart : keyOf first ≠ poolKey := fun same => absent (List.mem_map.mpr ⟨i, later, own.trans same.symm⟩)
      obtain ⟨before, same, written⟩ : ∃ before : Ledger Key,
          activeByKey before.rows poolKey = activeByKey (one ledger first).rows poolKey ∧ _ := ih distinct later
      exact ⟨before, same.trans (frame _ _ apart), written⟩

end Fold

section Run

variable {quietDemoteSeconds seenAt maxAgeDays capacity : ℤ} {traded : List Key} {row after : LedgerRow Key}

def demotedRow (quietDemoteSeconds seenAt : ℤ) (traded : List Key) (row : LedgerRow Key) : LedgerRow Key :=
  if quiet quietDemoteSeconds seenAt traded row then row.transition .queued (some .quietDemoted) none else row

theorem demote_frame (ledger : Ledger Key) (row : LedgerRow Key) (other : row.poolKey ≠ poolKey) :
    activeByKey (demoteRow quietDemoteSeconds seenAt traded ledger row).rows poolKey = activeByKey ledger.rows poolKey := by
  unfold demoteRow
  split
  · rw [transition_at, if_neg (Ne.symm other)]
  · rfl

variable {active : List (LedgerRow Key)}

theorem ageOut_frame (ledger : Ledger Key) (written : Key) (other : written ≠ poolKey) :
    activeByKey (ageOutKey active ledger written).rows poolKey = activeByKey ledger.rows poolKey := by
  unfold ageOutKey
  split
  · rfl
  · split
    · rfl
    · rw [transition_at, if_neg (Ne.symm other)]

theorem admit_frame (ledger : Ledger Key) (written : Key) (other : written ≠ poolKey) :
    activeByKey (admitKey active ledger written).rows poolKey = activeByKey ledger.rows poolKey := by
  unfold admitKey
  split
  · rfl
  · split
    · rfl
    · rw [transition_at, if_neg (Ne.symm other)]

theorem defer_frame (ledger : Ledger Key) (written : Key) (other : written ≠ poolKey) :
    activeByKey (deferKey active ledger written).rows poolKey = activeByKey ledger.rows poolKey := by
  unfold deferKey
  split
  · rfl
  · dsimp only
    split
    · rfl
    · rw [transition_at, if_neg (Ne.symm other)]

theorem demoted_at (inside : row ∈ listEmergingActive ledger) :
    activeByKey ((listEmergingActive ledger).foldl (demoteRow quietDemoteSeconds seenAt traded) ledger).rows row.poolKey =
      some (demotedRow quietDemoteSeconds seenAt traded row) := by
  obtain ⟨before, same, written⟩ := fold_once LedgerRow.poolKey demote_frame active_distinct inside rfl
  have own : activeByKey ledger.rows row.poolKey = some row :=
    (activeByKey_eq_some ledger.distinct).mpr ⟨List.mem_of_mem_filter inside, rfl⟩
  rw [written, demoteRow, demotedRow]
  split
  · rw [transition_at, if_pos rfl, same, own, Option.map_some]
  · rw [same, own]

theorem lookup (inside : row ∈ listEmergingActive ledger) : activeByKey (listEmergingActive ledger) row.poolKey = some row :=
  (activeByKey_eq_some active_distinct).mpr ⟨inside, rfl⟩

section Keys

variable (one : Ledger Key → Key → Ledger Key) (ledger : Ledger Key) {keys : List Key}
  (frame : ∀ ledger written, written ≠ poolKey → activeByKey (one ledger written).rows poolKey = activeByKey ledger.rows poolKey)
include frame

theorem skipped (absent : poolKey ∉ keys) : activeByKey (keys.foldl one ledger).rows poolKey = activeByKey ledger.rows poolKey :=
  fold_frame id frame (by rwa [List.map_id])

theorem written_once (distinct : keys.Nodup) (inside : poolKey ∈ keys) :
    ∃ before, activeByKey before.rows poolKey = activeByKey ledger.rows poolKey ∧
      activeByKey (keys.foldl one ledger).rows poolKey = activeByKey (one before poolKey).rows poolKey :=
  fold_once id frame (by rwa [List.map_id]) inside rfl

end Keys

section

variable (inside : row ∈ listEmergingActive ledger)
include inside

theorem run_of_aged (aged : ageTransition row seenAt maxAgeDays = .aged)
    (found : activeByKey (runAdmission quietDemoteSeconds seenAt maxAgeDays capacity traded ledger).rows row.poolKey = some after) :
    after.state = .agedOut := by
  have listed : row.poolKey ∈ (planAdmission (listEmergingActive ledger) seenAt maxAgeDays capacity).ageOut :=
    (mem_ageOut active_distinct inside).mpr aged
  have active : row.state ≠ .agedOut := by simpa using List.of_mem_filter inside
  unfold runAdmission at found
  dsimp only at found
  rw [skipped _ _ defer_frame fun later => not_ageOut_of_defer active_distinct later listed,
    skipped _ _ admit_frame fun admits => not_ageOut_of_admits active_distinct admits listed] at found
  generalize start : (listEmergingActive ledger).foldl (demoteRow quietDemoteSeconds seenAt traded) ledger = demoted at found
  have known : activeByKey demoted.rows row.poolKey = some (demotedRow quietDemoteSeconds seenAt traded row) := by
    rw [← start, demoted_at inside]
  obtain ⟨before, same, written⟩ := written_once (ageOutKey (listEmergingActive ledger)) demoted ageOut_frame
    (ageOut_nodup active_distinct) listed
  rw [written, ageOutKey, lookup inside] at found
  dsimp only at found
  rw [if_neg active, transition_at, if_pos rfl, same, known, Option.map_some, Option.some_inj] at found
  rw [← found, LedgerRow.transition]

theorem run_of_admitted
    (listed : row.poolKey ∈ (planAdmission (listEmergingActive ledger) seenAt maxAgeDays capacity).admits)
    (found : activeByKey (runAdmission quietDemoteSeconds seenAt maxAgeDays capacity traded ledger).rows row.poolKey = some after) :
    after.admittedRank ≠ none := by
  have waits := (mem_waiting.mp (List.mem_of_mem_take ((mem_admits active_distinct inside).mp listed))).2
  unfold runAdmission at found
  dsimp only at found
  rw [skipped _ _ defer_frame (not_defer_of_admits active_distinct listed)] at found
  generalize start : List.foldl (ageOutKey (listEmergingActive ledger)) _ _ = agedOut at found
  have known : activeByKey agedOut.rows row.poolKey = some (demotedRow quietDemoteSeconds seenAt traded row) := by
    rw [← start, skipped _ _ ageOut_frame (not_ageOut_of_admits active_distinct listed), demoted_at inside]
  obtain ⟨before, same, written⟩ := written_once (admitKey (listEmergingActive ledger)) agedOut admit_frame
    (admits_nodup active_distinct) listed
  rw [written, admitKey, lookup inside] at found
  dsimp only at found
  rw [waits.2.1, if_neg (by simp), transition_at, if_pos rfl, same, known, Option.map_some, Option.some_inj] at found
  simp [← found, LedgerRow.transition]

theorem run_of_deferred
    (listed : row.poolKey ∈ (planAdmission (listEmergingActive ledger) seenAt maxAgeDays capacity).defer) :
    ∃ state, activeByKey (runAdmission quietDemoteSeconds seenAt maxAgeDays capacity traded ledger).rows row.poolKey =
      some (row.transition state (some .capacityDeferred) none) ∧ state ≠ .agedOut := by
  have active : row.state ≠ .agedOut := by simpa using List.of_mem_filter inside
  unfold runAdmission
  dsimp only
  generalize start : List.foldl (admitKey (listEmergingActive ledger)) _ _ = admitted
  have known : activeByKey admitted.rows row.poolKey = some (demotedRow quietDemoteSeconds seenAt traded row) := by
    rw [← start, skipped _ _ admit_frame fun admits => not_defer_of_admits active_distinct admits listed,
      skipped _ _ ageOut_frame (not_ageOut_of_defer active_distinct listed), demoted_at inside]
  obtain ⟨before, same, written⟩ := written_once (deferKey (listEmergingActive ledger)) admitted defer_frame
    (defer_nodup active_distinct) listed
  rw [written, deferKey, lookup inside]
  dsimp only
  split
  · -- a row that was deferred already has not been demoted
    rename_i already
    rw [Bool.and_eq_true, Option.isNone_iff_eq_none, decide_eq_true_eq] at already
    refine ⟨row.state, ?_, active⟩
    rw [same, known, demotedRow, quiet, already.1]
    simp [LedgerRow.transition, ← already.1, ← already.2]
  · rw [transition_at, if_pos rfl, same, known]
    refine ⟨.queued, ?_, by simp⟩
    rw [Option.map_some, demotedRow]
    split <;> rfl

theorem run_of_kept (young : ageTransition row seenAt maxAgeDays ≠ .aged)
    (notAdmitted : row.poolKey ∉ (planAdmission (listEmergingActive ledger) seenAt maxAgeDays capacity).admits)
    (notDeferred : row.poolKey ∉ (planAdmission (listEmergingActive ledger) seenAt maxAgeDays capacity).defer) :
    activeByKey (runAdmission quietDemoteSeconds seenAt maxAgeDays capacity traded ledger).rows row.poolKey =
      some (demotedRow quietDemoteSeconds seenAt traded row) := by
  unfold runAdmission
  dsimp only
  rw [skipped _ _ defer_frame notDeferred, skipped _ _ admit_frame notAdmitted,
    skipped _ _ ageOut_frame fun out => young ((mem_ageOut active_distinct inside).mp out), demoted_at inside]

end

end Run

end Application

end LpTerminal.Emerging.Admission
