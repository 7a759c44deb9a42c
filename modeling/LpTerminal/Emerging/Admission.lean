import LpTerminal.Lib.StableSort
import Mathlib.Algebra.Order.Group.Int

/-!
The admission queue of the observation ledger: the plan for its active rows, and how the discovery sweep writes it back. Pool keys
are taken in the order of their strings.
-/

namespace LpTerminal.Emerging.Admission

inductive ObservationState
  | discovered
  | queued
  | backfilling
  | tracking
  | agedOut
deriving DecidableEq

inductive ObservationReason
  | capacityDeferred
  | dataGap
  | reorgRepair
  | ageExceeded
  | quietDemoted
deriving DecidableEq

structure LedgerRow (Key : Type*) where
  poolKey : Key
  state : ObservationState
  reason : Option ObservationReason
  poolCreatedAt : Option ℤ
  tokenCreatedAt : Option ℤ
  /-- `none` when not pinned. -/
  pinnedUntil : Option ℤ
  admittedRank : Option ℕ
  firstSeenAt : ℤ
deriving DecidableEq

variable {Key : Type*} [LinearOrder Key]

inductive Age
  | young
  | aged
  | unknown
deriving DecidableEq

def ageTransition (row : LedgerRow Key) (nowSec maxAgeDays : ℤ) : Age :=
  let cutoff := nowSec - maxAgeDays * 86400
  let births := [row.poolCreatedAt, row.tokenCreatedAt].reduceOption
  if births = [] then .unknown
  else if births.any fun t => cutoff < t then .young
  else .aged

structure AdmissionPlan (Key : Type*) where
  admits : List Key
  defer : List Key
  ageOut : List Key
  /-- The rows tracked after the plan, pins included. -/
  capacity : ℕ

/-- `r.pinnedUntil !== null && r.pinnedUntil > nowSec`. -/
def LedgerRow.pinned (nowSec : ℤ) (row : LedgerRow Key) : Bool := row.pinnedUntil.any fun t => nowSec < t

def young (rows : List (LedgerRow Key)) (nowSec maxAgeDays : ℤ) : List (LedgerRow Key) :=
  rows.filter fun row => ageTransition row nowSec maxAgeDays ≠ .aged

def rankOrder (a b : LedgerRow Key) : Bool := a.admittedRank.getD 0 ≤ b.admittedRank.getD 0

/-- Whether the comparison of the queue puts `a` first or leaves the two as they are: rows demoted for silence last. -/
def queueOrder (a b : LedgerRow Key) : Bool :=
  let da := if a.reason = some .quietDemoted then 1 else 0
  let db := if b.reason = some .quietDemoted then 1 else 0
  if da ≠ db then da ≤ db
  else if a.firstSeenAt ≠ b.firstSeenAt then a.firstSeenAt ≤ b.firstSeenAt
  else a.poolKey ≤ b.poolKey

section Parts

variable (rows : List (LedgerRow Key)) (nowSec maxAgeDays capacity : ℤ)

def pinnedRows : List (LedgerRow Key) := (young rows nowSec maxAgeDays).filter (·.pinned nowSec)

def free : ℕ := (capacity - (pinnedRows rows nowSec maxAgeDays).length).toNat

def trackingRows : List (LedgerRow Key) :=
  (young rows nowSec maxAgeDays).filter fun row => row.pinned nowSec || row.admittedRank.isSome

def slotRows : List (LedgerRow Key) := (trackingRows rows nowSec maxAgeDays).filter fun row => !row.pinned nowSec

def unpinnedTracked : List (LedgerRow Key) := (slotRows rows nowSec maxAgeDays).mergeSort rankOrder

def waitingRows : List (LedgerRow Key) :=
  (young rows nowSec maxAgeDays).filter fun row => row.admittedRank.isNone && !row.pinned nowSec

def waiting : List (LedgerRow Key) := (waitingRows rows nowSec maxAgeDays).mergeSort queueOrder

def keep : ℕ := min (unpinnedTracked rows nowSec maxAgeDays).length (free rows nowSec maxAgeDays capacity)

def kept : List (LedgerRow Key) := (unpinnedTracked rows nowSec maxAgeDays).take (keep rows nowSec maxAgeDays capacity)

def openings : ℕ := free rows nowSec maxAgeDays capacity - keep rows nowSec maxAgeDays capacity

def planAdmission : AdmissionPlan Key :=
  let pinned := pinnedRows rows nowSec maxAgeDays
  let kept := kept rows nowSec maxAgeDays capacity
  let admits := ((waiting rows nowSec maxAgeDays).take (openings rows nowSec maxAgeDays capacity)).map LedgerRow.poolKey
  { admits
    defer := ((waiting rows nowSec maxAgeDays).drop admits.length).map LedgerRow.poolKey ++
      ((unpinnedTracked rows nowSec maxAgeDays).drop (keep rows nowSec maxAgeDays capacity)).map LedgerRow.poolKey
    ageOut := (rows.filter fun row => ageTransition row nowSec maxAgeDays = .aged).map LedgerRow.poolKey
    capacity := pinned.length + kept.length + admits.length }

end Parts

/-- `emerging_discovery`, whose key is `pool_key`, with the last rank given. -/
structure Ledger (Key : Type*) where
  rows : List (LedgerRow Key)
  distinct : (rows.map LedgerRow.poolKey).Nodup
  /-- The value of `ADMISSION_SEQ_KEY`. -/
  nextRank : ℕ

def listEmergingActive (ledger : Ledger Key) : List (LedgerRow Key) := ledger.rows.filter (·.state ≠ .agedOut)

def LedgerRow.transition (toState : ObservationState) (reason : Option ObservationReason) (admittedRank : Option ℕ)
    (row : LedgerRow Key) : LedgerRow Key :=
  { row with state := toState, reason, admittedRank }

/-- `UPDATE emerging_discovery SET … WHERE pool_key = ?`, as one row sees it. -/
def LedgerRow.update (poolKey : Key) (change : LedgerRow Key → LedgerRow Key) (row : LedgerRow Key) : LedgerRow Key :=
  if row.poolKey = poolKey then change row else row

/-- `recordEmergingTransition`; no caller of the sweep sets a pin. -/
def recordEmergingTransition (poolKey : Key) (toState : ObservationState) (reason : Option ObservationReason)
    (admittedRank : Option ℕ) (ledger : Ledger Key) : Ledger Key :=
  { ledger with
    rows := ledger.rows.map (·.update poolKey (·.transition toState reason admittedRank))
    distinct := by
      have same : ∀ row : LedgerRow Key, (row.update poolKey (·.transition toState reason admittedRank)).poolKey = row.poolKey :=
        fun row => by by_cases own : row.poolKey = poolKey <;> simp [LedgerRow.update, LedgerRow.transition, own]
      simpa [List.map_map, Function.comp_def, same] using ledger.distinct }

def quiet (quietDemoteSeconds seenAt : ℤ) (traded : List Key) (row : LedgerRow Key) : Bool :=
  row.admittedRank.isSome && row.pinnedUntil.isNone && quietDemoteSeconds ≤ seenAt - row.firstSeenAt && row.poolKey ∉ traded

def demoteRow (quietDemoteSeconds seenAt : ℤ) (traded : List Key) (ledger : Ledger Key) (row : LedgerRow Key) : Ledger Key :=
  if quiet quietDemoteSeconds seenAt traded row then recordEmergingTransition row.poolKey .queued (some .quietDemoted) none ledger
  else ledger

/-- `activeByKey.get`. -/
def activeByKey (active : List (LedgerRow Key)) (poolKey : Key) : Option (LedgerRow Key) := active.find? (·.poolKey = poolKey)

def ageOutKey (active : List (LedgerRow Key)) (ledger : Ledger Key) (poolKey : Key) : Ledger Key :=
  match activeByKey active poolKey with
  | none => ledger
  | some r =>
    if r.state = .agedOut then ledger else recordEmergingTransition poolKey .agedOut (some .ageExceeded) none ledger

def admitKey (active : List (LedgerRow Key)) (ledger : Ledger Key) (poolKey : Key) : Ledger Key :=
  match activeByKey active poolKey with
  | none => ledger
  | some r =>
    if r.admittedRank.isSome then ledger
    else
      let nextRank := ledger.nextRank + 1
      { recordEmergingTransition poolKey .queued none (some nextRank) ledger with nextRank }

def deferKey (active : List (LedgerRow Key)) (ledger : Ledger Key) (poolKey : Key) : Ledger Key :=
  match activeByKey active poolKey with
  | none => ledger
  | some r =>
    let deferredAlready := r.admittedRank.isNone && r.reason = some .capacityDeferred
    if deferredAlready then ledger else recordEmergingTransition poolKey .queued (some .capacityDeferred) none ledger

/-- The demotion and the admission of `runEmergingDiscoverySweep`, on the active rows it reads after the discoveries. -/
def runAdmission (quietDemoteSeconds seenAt maxAgeDays capacity : ℤ) (traded : List Key) (ledger : Ledger Key) : Ledger Key :=
  let active := listEmergingActive ledger
  let plan := planAdmission active seenAt maxAgeDays capacity
  let demoted := active.foldl (demoteRow quietDemoteSeconds seenAt traded) ledger
  let agedOut := plan.ageOut.foldl (ageOutKey active) demoted
  let admitted := plan.admits.foldl (admitKey active) agedOut
  plan.defer.foldl (deferKey active) admitted

end LpTerminal.Emerging.Admission
