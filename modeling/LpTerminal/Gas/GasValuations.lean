import LpTerminal.Lib.Durable
import LpTerminal.Lib.Fallible
import LpTerminal.Lib.InsertionMap
import LpTerminal.Solver.Wire
import LpTerminal.Store.Jobs
import Mathlib.Data.String.Basic

/-!
`gas_valuations`: the receipt of a transaction's gas, the value it is marked with, the backfill that attaches a mark to a gas row
of the ledger, and what none of these calls changes.
-/

namespace LpTerminal.Gas

open Durable
open Fallible (demand demand_ok)
open Solver (Json lower text)

inductive GasSource
  | exactNative | confirmationQuote | historicalBlockClose

/-- The receipt facts of a mark; the marks of this code are of version 1. -/
structure GasReceipt where
  txHash : String
  strategyId : String
  jobId : String
  blockNumber : String
  observedAt : ℚ
  gasWei : String
  quoteToken : String
  settlementToken : String

structure GasValuationMark extends GasReceipt where
  quoteValueRaw : Option String
  settlementValueRaw : Option String
  quoteSource : Option GasSource
  settlementSource : Option GasSource
  error : Option String

/-- A row of `gas_valuations`. -/
structure GasValuationRow extends GasValuationMark where
  valuationVersion : ℕ

/-- What the backfill reads of a row of `ledger_entries`; the ledger's writers stringify an object as its meta. -/
structure LedgerRow where
  id : String
  strategyId : String
  jobId : Option String
  ts : ℚ
  blockNumber : Option String
  txHash : Option String
  kind : Store.LedgerEntryKind
  amount : Option String
  quoteValue : Option String
  metaJson : InsertionMap String Json

structure GasStore where
  ledger : Table LedgerRow.id
  valuations : Table fun row : GasValuationRow => row.txHash

inductive GasError
  | message (text : String)
  | database
  deriving DecidableEq

inductive Statement
  | begin | readLedger | readValuation | updateLedger | insertValuation | updateValuation | commit | rollback
  deriving DecidableEq

abbrev Throws := Statement → Bool

abbrev Program := Durable GasError GasStore

def may (throws : Throws) (statement : Statement) : Program Unit := reply (demand (throws statement = false) .database)

def require (condition : Prop) [Decidable condition] (text : String) : Program Unit := reply (demand condition (.message text))

/-- `INSERT OR IGNORE` under the primary key. -/
def insertOrIgnore (valuations : Table fun row : GasValuationRow => row.txHash) (row : GasValuationRow) : Table fun row : GasValuationRow => row.txHash :=
  if (valuations.get? row.txHash).isSome then valuations else valuations.put row

def recordGasReceipt (throws : Throws) (mark : GasReceipt) : Program Unit := do
  may throws .insertValuation
  write fun store => { store with valuations := insertOrIgnore store.valuations ⟨⟨mark, none, none, none, none, none⟩, 1⟩ }

def awaits (mark : GasValuationMark) (row : GasValuationRow) : Bool :=
  row.txHash = mark.txHash && row.valuationVersion = 1 && row.jobId = mark.jobId && row.blockNumber = mark.blockNumber &&
    row.observedAt = mark.observedAt && row.gasWei = mark.gasWei &&
    row.quoteValueRaw.isNone && row.settlementValueRaw.isNone && row.quoteSource.isNone && row.settlementSource.isNone && row.error.isNone

def complete (mark : GasValuationMark) (row : GasValuationRow) : GasValuationRow :=
  if awaits mark row then
    { row with
      quoteValueRaw := row.quoteValueRaw <|> mark.quoteValueRaw
      settlementValueRaw := row.settlementValueRaw <|> mark.settlementValueRaw
      quoteSource := row.quoteSource <|> mark.quoteSource
      settlementSource := row.settlementSource <|> mark.settlementSource
      error := mark.error }
  else row

theorem complete_txHash (mark : GasValuationMark) (row : GasValuationRow) : (complete mark row).txHash = row.txHash := by
  unfold complete
  split <;> rfl

def completeGasValuation (throws : Throws) (mark : GasValuationMark) : Program Unit := do
  may throws .updateValuation
  write fun store => { store with valuations := store.valuations.adjust (complete mark) (complete_txHash mark) }

def gasValuation (store : GasStore) (txHash : String) : Option GasValuationMark :=
  ((store.valuations.get? txHash).filter fun row => row.valuationVersion = 1).map (·.toGasValuationMark)

structure LegacyGasValuationBackfill where
  ledgerId : String
  strategyId : String
  jobId : String
  txHash : String
  blockNumber : String
  observedAt : ℚ
  gasWei : String
  quoteToken : String
  quoteValueRaw : String
  settlementToken : String
  settlementValueRaw : String

/-- `^\d+$`. -/
def isInteger (s : String) : Bool := s.toList ≠ [] && s.toList.all Char.isDigit

def isNumber (value : Option Json) (number : ℚ) : Bool :=
  match value with
  | some (.num other) => other = number
  | _ => false

/-- `meta.gasValuationVersion === 1`. -/
def versioned (row : LedgerRow) : Bool := isNumber (row.metaJson.get? "gasValuationVersion") 1

def sameFacts (mark : LegacyGasValuationBackfill) (row : LedgerRow) : Bool :=
  row.kind = .gas && row.strategyId = mark.strategyId && row.jobId = some mark.jobId && row.ts = mark.observedAt &&
    row.blockNumber = some mark.blockNumber && row.txHash.map lower = some (lower mark.txHash) && row.amount = some mark.gasWei

def sameMark (mark : LegacyGasValuationBackfill) (row : LedgerRow) : Bool :=
  row.quoteValue = some mark.quoteValueRaw && isNumber (row.metaJson.get? "observedAt") mark.observedAt &&
    (text (row.metaJson.get? "quoteToken")).map lower = some (lower mark.quoteToken) &&
    text (row.metaJson.get? "quoteSource") = some "exact_native" &&
    (text (row.metaJson.get? "settlementToken")).map lower = some (lower mark.settlementToken) &&
    text (row.metaJson.get? "settlementValueRaw") = some mark.settlementValueRaw &&
    text (row.metaJson.get? "settlementSource") = some "historical_block_close"

def sameValuation (mark : LegacyGasValuationBackfill) (existing : GasValuationMark) : Bool :=
  existing.strategyId = mark.strategyId && existing.jobId = mark.jobId && existing.blockNumber = mark.blockNumber &&
    existing.observedAt = mark.observedAt && existing.gasWei = mark.gasWei && lower existing.quoteToken = lower mark.quoteToken &&
    existing.quoteValueRaw = some mark.quoteValueRaw && lower existing.settlementToken = lower mark.settlementToken &&
    existing.settlementValueRaw = some mark.settlementValueRaw

def nextMeta (mark : LegacyGasValuationBackfill) (metaJson : InsertionMap String Json) : InsertionMap String Json :=
  ((((((metaJson.set "gasValuationVersion" (.num 1)).set "observedAt" (.num mark.observedAt)).set "quoteToken" (.str mark.quoteToken)).set
    "quoteSource" (.str "exact_native")).set "settlementToken" (.str mark.settlementToken)).set
    "settlementValueRaw" (.str mark.settlementValueRaw)).set "settlementSource" (.str "historical_block_close")

def valued (mark : LegacyGasValuationBackfill) (row : LedgerRow) : LedgerRow :=
  { row with quoteValue := some mark.quoteValueRaw, metaJson := nextMeta mark row.metaJson }

def LegacyGasValuationBackfill.row (mark : LegacyGasValuationBackfill) : GasValuationRow where
  txHash := mark.txHash
  strategyId := mark.strategyId
  jobId := mark.jobId
  blockNumber := mark.blockNumber
  observedAt := mark.observedAt
  gasWei := mark.gasWei
  quoteToken := mark.quoteToken
  settlementToken := mark.settlementToken
  quoteValueRaw := some mark.quoteValueRaw
  settlementValueRaw := some mark.settlementValueRaw
  quoteSource := some .exactNative
  settlementSource := some .historicalBlockClose
  error := none
  valuationVersion := 1

def insertValuation (row : GasValuationRow) (store : GasStore) : Except GasError GasStore :=
  if (store.valuations.get? row.txHash).isSome then .error .database else .ok { store with valuations := store.valuations.put row }

def insertMissing (throws : Throws) (mark : LegacyGasValuationBackfill) (existing : Option GasValuationMark) : Program Unit :=
  match existing with
  | some _ => pure ()
  | none => do
    may throws .insertValuation
    tryWrite (insertValuation mark.row)

def attachMark (throws : Throws) (mark : LegacyGasValuationBackfill) (row : LedgerRow) : Program Bool := do
  require (row.quoteValue.all (· = mark.quoteValueRaw) = true) "legacy gas quote value conflicts with historical mark"
  may throws .readValuation
  let store ← read
  let existing := gasValuation store mark.txHash
  require (existing.all (sameValuation mark) = true) "existing gas valuation conflicts with historical mark"
  may throws .updateLedger
  write fun store => { store with ledger := store.ledger.put (valued mark row) }
  insertMissing throws mark existing
  may throws .commit
  return true

def backfillRow (throws : Throws) (mark : LegacyGasValuationBackfill) (row : LedgerRow) : Program Bool := do
  require (sameFacts mark row = true) "legacy gas ledger facts changed before backfill"
  if versioned row then
    require (sameMark mark row = true) "versioned gas ledger conflicts with historical mark"
    may throws .rollback
    return false
  else attachMark throws mark row

def backfillTransaction (throws : Throws) (mark : LegacyGasValuationBackfill) : Program Bool := do
  may throws .readLedger
  let store ← read
  match store.ledger.get? mark.ledgerId with
  | none => fail (.message "legacy gas ledger facts changed before backfill")
  | some row => backfillRow throws mark row

def backfillLegacyGasValuation (throws : Throws) (mark : LegacyGasValuationBackfill) : Program Bool := do
  require (isInteger mark.blockNumber ∧ isInteger mark.gasWei ∧ isInteger mark.quoteValueRaw ∧ isInteger mark.settlementValueRaw)
    "legacy gas valuation contains a non-integer amount"
  may throws .begin
  atomically (backfillTransaction throws mark)

inductive GasAction
  | record (mark : GasReceipt)
  | complete (mark : GasValuationMark)
  | backfill (mark : LegacyGasValuationBackfill)

structure GasCall where
  action : GasAction
  throws : Throws

def GasCall.program (call : GasCall) : Program Unit :=
  match call.action with
  | .record mark => recordGasReceipt call.throws mark
  | .complete mark => completeGasValuation call.throws mark
  | .backfill mark => do
    let _ ← backfillLegacyGasValuation call.throws mark

def after (store : GasStore) (calls : List GasCall) : GasStore :=
  calls.foldl (fun store call => left call.program store) store

variable {store final : GasStore} {throws : Throws} {mark : LegacyGasValuationBackfill} {row : LedgerRow}

theorem may_at {α : Type} {f : Unit → Program α} {statement : Statement} {Q : α → GasStore → Prop} {E : GasStore → Prop}
    (next : Triple (· = store) (f ()) Q E) (stops : E store) : Triple (· = store) (may throws statement >>= f) Q E :=
  triple_reply_at (fun _ _ => next) fun _ _ => stops

theorem require_at {α : Type} {f : Unit → Program α} {condition : Prop} [Decidable condition] {text : String} {Q : α → GasStore → Prop}
    {E : GasStore → Prop} (next : condition → Triple (· = store) (f ()) Q E) (stops : E store) :
    Triple (· = store) (require condition text >>= f) Q E :=
  triple_reply_at (fun _ held => next (demand_ok.mp held)) fun _ _ => stops

/-- A backfill finds the mark of the row, or attaches it to a row that has none. -/
inductive Filled (mark : LegacyGasValuationBackfill) (store : GasStore) : Bool → GasStore → Prop
  | known (row : LedgerRow) (found : store.ledger.get? mark.ledgerId = some row) (own : versioned row = true) : Filled mark store false store
  | attached (row : LedgerRow) (final : GasStore) (found : store.ledger.get? mark.ledgerId = some row) (fresh : versioned row = false)
      (ledger : final.ledger = store.ledger.put (valued mark row))
      (valuations : final.valuations = store.valuations ∨
        store.valuations.get? mark.txHash = none ∧ final.valuations = store.valuations.put mark.row) : Filled mark store true final

theorem attachMark_filled (found : store.ledger.get? mark.ledgerId = some row) (fresh : versioned row = false) :
    Triple (· = store) (attachMark throws mark row) (Filled mark store) fun _ => True := by
  unfold attachMark
  refine require_at (fun _ => may_at (triple_read_at (require_at (fun _ => may_at (triple_write_at ?_) trivial) trivial)) trivial) trivial
  unfold insertMissing
  cases gasValuation store mark.txHash with
  | some existing => exact may_at (triple_pure fun _ same => same ▸ .attached row _ found fresh rfl (Or.inl rfl)) trivial
  | none =>
    refine triple_bind (Q := fun _ final => ∃ missing : store.valuations.get? mark.txHash = none,
      final = ⟨store.ledger.put (valued mark row), store.valuations.put mark.row⟩) ?_ fun _ => triple_each fun final inserted => ?_
    · refine may_at (triple_tryWrite (fun s s' same told => ?_) fun _ _ _ _ => trivial) trivial
      subst same
      unfold insertValuation at told
      split at told
      · cases told
      · rename_i missing
        cases told
        exact ⟨Option.not_isSome_iff_eq_none.mp missing, rfl⟩
    · obtain ⟨missing, rfl⟩ := inserted
      exact may_at (triple_pure fun _ same => same ▸ .attached row _ found fresh rfl (Or.inr ⟨missing, rfl⟩)) trivial

theorem backfillTransaction_filled : Triple (· = store) (backfillTransaction throws mark) (Filled mark store) fun _ => True := by
  unfold backfillTransaction
  refine may_at (triple_read_at ?_) trivial
  cases found : store.ledger.get? mark.ledgerId with
  | none => exact triple_fail fun _ _ => trivial
  | some row =>
    unfold backfillRow
    refine require_at (fun _ => ?_) trivial
    split
    · rename_i own
      refine require_at (fun _ => may_at (triple_pure ?_) trivial) trivial
      rintro _ rfl
      exact .known row found own
    · rename_i fresh
      exact attachMark_filled found (Bool.not_eq_true _ ▸ fresh)

theorem backfill_filled : Triple (· = store) (backfillLegacyGasValuation throws mark) (Filled mark store) (· = store) := by
  unfold backfillLegacyGasValuation
  refine require_at (fun _ => may_at (triple_atomically fun s same => ?_) rfl) rfl
  subst same
  exact triple_weaken backfillTransaction_filled (fun _ same => same) (fun _ _ filled => filled) fun _ _ => rfl

structure Kept (before after : GasStore) : Prop where
  quotes : ∀ txHash value, (before.valuations.get? txHash).bind (·.quoteValueRaw) = some value →
    (after.valuations.get? txHash).bind (·.quoteValueRaw) = some value
  settlements : ∀ txHash value, (before.valuations.get? txHash).bind (·.settlementValueRaw) = some value →
    (after.valuations.get? txHash).bind (·.settlementValueRaw) = some value
  ledger : ∀ id row, before.ledger.get? id = some row → versioned row = true → after.ledger.get? id = some row

theorem Kept.refl (store : GasStore) : Kept store store := ⟨fun _ _ set => set, fun _ _ set => set, fun _ _ found _ => found⟩

theorem Kept.trans {first second third : GasStore} (early : Kept first second) (late : Kept second third) : Kept first third where
  quotes txHash value set := late.quotes txHash value (early.quotes txHash value set)
  settlements txHash value set := late.settlements txHash value (early.settlements txHash value set)
  ledger id row found own := late.ledger id row (early.ledger id row found own) own

theorem kept_of_rows (rows : ∀ txHash row, store.valuations.get? txHash = some row → final.valuations.get? txHash = some row)
    (ledger : ∀ id row, store.ledger.get? id = some row → versioned row = true → final.ledger.get? id = some row) : Kept store final where
  quotes txHash value set := by
    obtain ⟨row, found, own⟩ := Option.bind_eq_some_iff.mp set
    rw [rows txHash row found]
    exact own
  settlements txHash value set := by
    obtain ⟨row, found, own⟩ := Option.bind_eq_some_iff.mp set
    rw [rows txHash row found]
    exact own
  ledger := ledger

theorem insertOrIgnore_get {valuations : Table fun row : GasValuationRow => row.txHash} {row other : GasValuationRow} {txHash : String}
    (found : valuations.get? txHash = some other) : (insertOrIgnore valuations row).get? txHash = some other := by
  unfold insertOrIgnore
  split
  · exact found
  · rename_i missing
    have apart : txHash ≠ row.txHash := by
      rintro rfl
      exact missing (Option.isSome_of_eq_some found)
    exact (show (valuations.put row).get? txHash = valuations.get? txHash from Table.get?_put_other apart).trans found

theorem complete_set {mark : GasValuationMark} {row : GasValuationRow} {value : String} :
    (row.quoteValueRaw = some value → (complete mark row).quoteValueRaw = some value) ∧
      (row.settlementValueRaw = some value → (complete mark row).settlementValueRaw = some value) := by
  unfold complete
  split
  · constructor <;> intro set <;> simp [set]
  · exact ⟨fun set => set, fun set => set⟩

theorem record_kept {mark : GasReceipt} : Kept store (left (recordGasReceipt throws mark) store) := by
  refine left_keeps (P := (· = store)) (may_at (triple_write ?_) (Kept.refl store)) rfl
  rintro _ rfl
  exact kept_of_rows (fun _ _ found => insertOrIgnore_get found) fun _ _ found _ => found

theorem complete_kept {mark : GasValuationMark} : Kept store (left (completeGasValuation throws mark) store) := by
  refine left_keeps (P := (· = store)) (may_at (triple_write ?_) (Kept.refl store)) rfl
  rintro _ rfl
  refine ⟨fun txHash value set => ?_, fun txHash value set => ?_, fun _ _ found _ => found⟩
  · obtain ⟨row, found, own⟩ := Option.bind_eq_some_iff.mp set
    rw [Table.get?_adjust, found]
    exact complete_set.1 own
  · obtain ⟨row, found, own⟩ := Option.bind_eq_some_iff.mp set
    rw [Table.get?_adjust, found]
    exact complete_set.2 own

theorem Filled.kept {filled : Bool} (own : Filled mark store filled final) : Kept store final := by
  cases own with
  | known => exact Kept.refl store
  | attached row _ found fresh ledger valuations =>
    refine kept_of_rows (fun txHash other known => ?_) fun id other known versioned' => ?_
    · rcases valuations with same | ⟨missing, put⟩
      · rw [same]
        exact known
      · have apart : txHash ≠ mark.row.txHash := by
          rintro rfl
          exact absurd (missing.symm.trans known) nofun
        rw [put]
        exact (show (store.valuations.put mark.row).get? txHash = store.valuations.get? txHash from Table.get?_put_other apart).trans known
    · have key : row.id = mark.ledgerId := Table.get?_key found
      have apart : id ≠ (valued mark row).id := by
        intro same
        rw [show id = mark.ledgerId from same.trans key, found] at known
        cases known
        exact absurd (fresh.symm.trans versioned') nofun
      rw [ledger, Table.get?_put_other apart]
      exact known

theorem call_kept (call : GasCall) : Kept store (left call.program store) := by
  unfold GasCall.program
  cases call.action with
  | record mark => exact record_kept
  | complete mark => exact complete_kept
  | backfill mark =>
    have kept : Triple (· = store) (backfillLegacyGasValuation call.throws mark) (fun _ => Kept store) (Kept store) :=
      triple_weaken backfill_filled (fun _ same => same) (fun _ _ own => own.kept) fun _ same => same ▸ Kept.refl store
    exact left_keeps (P := (· = store)) (triple_bind kept fun _ => triple_pure fun _ own => own) rfl

theorem after_kept (calls : List GasCall) : Kept store (after store calls) := by
  induction calls generalizing store with
  | nil => exact Kept.refl store
  | cons call rest ih => exact (call_kept call).trans ih

theorem backfill_known (found : store.ledger.get? mark.ledgerId = some row) (own : versioned row = true) :
    left (GasCall.program ⟨.backfill mark, throws⟩) store = store := by
  have kept : Triple (· = store) (backfillLegacyGasValuation throws mark) (fun _ => (· = store)) (· = store) := by
    refine triple_weaken backfill_filled (fun _ same => same) (fun _ _ filled => ?_) fun _ same => same
    cases filled with
    | known => rfl
    | attached other _ found' fresh =>
      rw [found] at found'
      cases found'
      exact absurd (fresh.symm.trans own) nofun
  exact left_keeps (P := (· = store)) (triple_bind kept fun _ => triple_pure fun _ same => same) rfl

theorem versioned_valued : versioned (valued mark row) = true := by
  have read : (nextMeta mark row.metaJson).get? "gasValuationVersion" = some (.num 1) := by
    simp [nextMeta, InsertionMap.get?_set]
  unfold versioned valued
  rw [read]
  simp [isNumber]

theorem complete_waits {mark : GasValuationMark} {row : GasValuationRow} (waits : awaits mark row = true)
    (still : awaits mark (complete mark row) = true) : complete mark row = row := by
  unfold complete at still ⊢
  rw [if_pos waits] at still ⊢
  obtain ⟨⟨receipt, quote, settlement, quoteSource, settlementSource, error⟩, version⟩ := row
  simp only [awaits, Bool.and_eq_true, decide_eq_true_eq, Option.isNone_iff_eq_none] at waits still
  obtain ⟨⟨⟨⟨⟨_, rfl⟩, rfl⟩, rfl⟩, rfl⟩, rfl⟩ := waits
  obtain ⟨⟨⟨⟨⟨_, quote⟩, settlement⟩, quoteSource⟩, settlementSource⟩, error⟩ := still
  dsimp only
  rw [quote, settlement, quoteSource, settlementSource, error]

theorem complete_complete (mark : GasValuationMark) (row : GasValuationRow) : complete mark (complete mark row) = complete mark row := by
  by_cases waits : awaits mark row = true
  · by_cases still : awaits mark (complete mark row) = true
    · rw [complete_waits waits still]
      exact complete_waits waits still
    · exact if_neg still
  · have same : complete mark row = row := if_neg waits
    rw [same, same]

theorem insertOrIgnore_twice (valuations : Table fun row : GasValuationRow => row.txHash) (row : GasValuationRow) :
    insertOrIgnore (insertOrIgnore valuations row) row = insertOrIgnore valuations row := by
  refine if_pos ?_
  unfold insertOrIgnore
  split
  · rename_i present
    exact present
  · exact Option.isSome_of_eq_some (show (valuations.put row).get? row.txHash = some row from Table.get?_put_same valuations row)

theorem adjust_twice (valuations : Table fun row : GasValuationRow => row.txHash) (mark : GasValuationMark) :
    (valuations.adjust (complete mark) (complete_txHash mark)).adjust (complete mark) (complete_txHash mark) =
      valuations.adjust (complete mark) (complete_txHash mark) := by
  refine Table.ext_get? fun txHash => ?_
  rw [Table.get?_adjust, Table.get?_adjust, Option.map_map]
  exact congrArg (fun edit => (valuations.get? txHash).map edit) (funext (complete_complete mark))

inductive Returned (store : GasStore) : GasAction → GasStore → Prop
  | record (mark : GasReceipt) :
      Returned store (.record mark) { store with valuations := insertOrIgnore store.valuations ⟨⟨mark, none, none, none, none, none⟩, 1⟩ }
  | complete (mark : GasValuationMark) :
      Returned store (.complete mark) { store with valuations := store.valuations.adjust (complete mark) (complete_txHash mark) }
  | backfill (mark : LegacyGasValuationBackfill) (final : GasStore) (row : LedgerRow) (found : final.ledger.get? mark.ledgerId = some row)
      (own : versioned row = true) : Returned store (.backfill mark) final

theorem Filled.versioned {filled : Bool} (own : Filled mark store filled final) :
    ∃ row, final.ledger.get? mark.ledgerId = some row ∧ versioned row = true := by
  cases own with
  | known row found own => exact ⟨row, found, own⟩
  | attached row _ found _ ledger _ =>
    refine ⟨valued mark row, ?_, versioned_valued⟩
    rw [ledger, show mark.ledgerId = (valued mark row).id from (Table.get?_key found).symm]
    exact Table.get?_put_same store.ledger (valued mark row)

theorem call_returned (call : GasCall) : Triple (· = store) call.program (fun _ => Returned store call.action) (· = store) := by
  unfold GasCall.program
  cases call.action with
  | record mark =>
    refine may_at (triple_write ?_) rfl
    rintro _ rfl
    exact .record mark
  | complete mark =>
    refine may_at (triple_write ?_) rfl
    rintro _ rfl
    exact .complete mark
  | backfill mark =>
    refine triple_bind backfill_filled fun _ => triple_pure fun final own => ?_
    obtain ⟨row, found, versioned⟩ := own.versioned
    exact .backfill mark final row found versioned

theorem Returned.again {action : GasAction} (own : Returned store action final) (throws : Throws) :
    left (GasCall.program ⟨action, throws⟩) final = final := by
  cases own with
  | record mark =>
    refine left_keeps (P := (· = _)) (E := (· = _)) (may_at (triple_write ?_) rfl) rfl
    rintro _ rfl
    rw [insertOrIgnore_twice]
  | complete mark =>
    refine left_keeps (P := (· = _)) (E := (· = _)) (may_at (triple_write ?_) rfl) rfl
    rintro _ rfl
    rw [adjust_twice]
  | backfill mark _ row found own => exact backfill_known found own

theorem thrown_left {call : GasCall} {error : GasError} (threw : (call.program.run store).1 = .error error) : left call.program store = store := by
  have ran := (call_returned call : Triple (· = store) call.program _ _) store rfl
  unfold left
  generalize call.program.run store = result at ran threw ⊢
  obtain ⟨outcome, final⟩ := result
  change outcome = .error error at threw
  subst threw
  exact ran

theorem returned_left {call : GasCall} (returned : (call.program.run store).1 = .ok ()) :
    Returned store call.action (left call.program store) := by
  have ran := (call_returned call : Triple (· = store) call.program _ _) store rfl
  unfold left
  generalize call.program.run store = result at ran returned ⊢
  obtain ⟨outcome, final⟩ := result
  change outcome = .ok () at returned
  subst returned
  exact ran

theorem repeat_left (call : GasCall) : left call.program (left call.program store) = left call.program store := by
  cases threw : (call.program.run store).1 with
  | error error => rw [thrown_left threw, thrown_left threw]
  | ok => exact (returned_left threw).again call.throws

/-- Whatever was called before, and whatever is called later: a value that is set and a versioned ledger row stay, a call that
throws changes nothing, and neither does a call repeated, nor one that returned and is called again under other throws. -/
theorem gas_marks_write_once (store : GasStore) (calls later : List GasCall) (call : GasCall) :
    Kept (after store calls) (after store (calls ++ later)) ∧
      (∀ error, (call.program.run (after store calls)).1 = .error error → after store (calls ++ [call]) = after store calls) ∧
      after store (calls ++ [call, call]) = after store (calls ++ [call]) ∧
      ((call.program.run (after store calls)).1 = .ok () →
        ∀ throws, after store (calls ++ [call, ⟨call.action, throws⟩]) = after store (calls ++ [call])) := by
  have next : ∀ rest, after store (calls ++ rest) = after (after store calls) rest := fun rest => List.foldl_append
  rw [next, next, next]
  refine ⟨after_kept later, fun error threw => thrown_left threw, repeat_left call, fun returned throws => ?_⟩
  rw [next]
  exact (returned_left returned).again throws

def legacyRow : LedgerRow where
  id := "gas-1"
  strategyId := "s1"
  jobId := some "j1"
  ts := 100
  blockNumber := some "7"
  txHash := some "0xAB"
  kind := .gas
  amount := some "21000"
  quoteValue := none
  metaJson := .empty

def legacyStore : GasStore := ⟨Table.empty.put legacyRow, Table.empty⟩

def legacyMark : LegacyGasValuationBackfill := ⟨"gas-1", "s1", "j1", "0xab", "7", 100, "21000", "0x01", "5", "0x02", "6"⟩

/-- The backfill of a legacy row, and a second run whose rollback throws. -/
theorem gas_marks_write_once_legacy :
    Kept legacyStore (after legacyStore [⟨.backfill legacyMark, fun _ => false⟩]) ∧
      after legacyStore [⟨.backfill legacyMark, fun _ => false⟩, ⟨.backfill legacyMark, fun statement => statement = .rollback⟩] =
        after legacyStore [⟨.backfill legacyMark, fun _ => false⟩] := by
  obtain ⟨kept, _, _, again⟩ := gas_marks_write_once legacyStore [] [⟨.backfill legacyMark, fun _ => false⟩] ⟨.backfill legacyMark, fun _ => false⟩
  have returned : ((GasCall.program ⟨.backfill legacyMark, fun _ => false⟩).run legacyStore).1 = .ok () := by decide +kernel
  exact ⟨kept, again returned fun statement => statement = .rollback⟩

end LpTerminal.Gas
