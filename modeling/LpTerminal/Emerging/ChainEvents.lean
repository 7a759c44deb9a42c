import Mathlib.Data.List.Basic
import Mathlib.Data.Int.Notation
import Mathlib.Order.Basic

/-!
The raw events of the tracked pools and tokens: `emerging_chain_events`, in the order of its row ids.
-/

namespace LpTerminal.Emerging

inductive EventKind where
  | swap
  | mint
  | burn
  | v4raw
  | transfer
  deriving DecidableEq

/-- The decoded fields that a consumer reads; `none` is a field the payload lacks. -/
structure Payload where
  sender : Option ℕ
  receiver : Option ℕ
  value : Option ℕ
  amount0 : Option ℤ
  amount1 : Option ℤ
  sqrtPriceX96 : Option ℕ
  deriving DecidableEq

/-- One event as a scan batch inserts it. Hashes, addresses and pool keys are numbers. -/
structure EventInsert where
  txHash : ℕ
  logIndex : ℕ
  blockNumber : ℕ
  blockHash : ℕ
  txIndex : ℕ
  blockTs : Option ℕ
  contract : ℕ
  kind : EventKind
  poolKey : Option ℕ
  token : Option ℕ
  payload : Payload

structure ChainEvent extends EventInsert where
  rid : ℕ
  canonical : Bool

abbrev ChainEvents := List ChainEvent

/-- `INSERT OR IGNORE`: the primary key is the log's place on the chain. -/
def insertEvent (events : ChainEvents) (e : EventInsert) : ChainEvents :=
  if events.any fun row => row.txHash = e.txHash ∧ row.logIndex = e.logIndex then events
  else events ++ [{ e with rid := events.length + 1, canonical := true }]

/-- `UPDATE emerging_chain_events SET canonical = 0 WHERE block_number > ?`. -/
def archiveAbove (events : ChainEvents) (ancestor : ℕ) : ChainEvents :=
  events.map fun row => if row.canonical ∧ ancestor < row.blockNumber then { row with canonical := false } else row

/-- `UPDATE emerging_chain_events SET block_ts = ? WHERE block_number = ? AND block_ts IS NULL`. -/
def dateBlock (events : ChainEvents) (block ts : ℕ) : ChainEvents :=
  events.map fun row => if row.blockNumber = block ∧ row.blockTs = none then { row with blockTs := some ts } else row

/-- Row ids grow from 1 without a gap in the list. -/
structure Numbered (events : ChainEvents) : Prop where
  sorted : events.Pairwise fun first second => first.rid < second.rid
  bounded : ∀ row ∈ events, 0 < row.rid ∧ row.rid ≤ events.length

variable {events : ChainEvents}

theorem numbered_nil : Numbered [] := ⟨List.Pairwise.nil, by simp⟩

section

variable (numbered : Numbered events)
include numbered

theorem Numbered.insertEvent (e : EventInsert) : Numbered (insertEvent events e) := by
  unfold Emerging.insertEvent
  split
  · exact numbered
  · constructor
    · apply List.pairwise_append.mpr
      refine ⟨numbered.sorted, List.pairwise_singleton _ _, fun first member second last => ?_⟩
      have bound := (numbered.bounded first member).2
      rw [List.mem_singleton.mp last]
      exact Nat.lt_succ_of_le bound
    · intro row member
      rw [List.length_append, List.length_singleton]
      rcases List.mem_append.mp member with old | last
      · have bound := numbered.bounded row old
        omega
      · rw [List.mem_singleton.mp last]
        exact ⟨Nat.succ_pos _, Nat.le_refl _⟩

theorem Numbered.insertEvents (batch : List EventInsert) : Numbered (batch.foldl Emerging.insertEvent events) := by
  induction batch generalizing events with
  | nil => exact numbered
  | cons e rest ih => exact ih (numbered.insertEvent e)

theorem Numbered.map {edit : ChainEvent → ChainEvent} (same : ∀ row, (edit row).rid = row.rid) :
    Numbered (events.map edit) := by
  constructor
  · exact List.pairwise_map.mpr (numbered.sorted.imp fun before => by rw [same, same]; exact before)
  · intro row member
    obtain ⟨old, inside, rfl⟩ := List.mem_map.mp member
    rw [List.length_map, same]
    exact numbered.bounded old inside

theorem Numbered.archiveAbove (ancestor : ℕ) : Numbered (archiveAbove events ancestor) :=
  numbered.map fun row => by split <;> rfl

theorem Numbered.dateBlock (block ts : ℕ) : Numbered (dateBlock events block ts) :=
  numbered.map fun row => by split <;> rfl

end

theorem filter_rid {rows : ChainEvents} (sorted : rows.Pairwise fun first second => first.rid < second.rid) (w : ℕ) :
    rows.filter (fun row => row.rid ≤ w) ++ rows.filter (fun row => w < row.rid) = rows := by
  induction rows with
  | nil => rfl
  | cons first rest ih =>
    obtain ⟨ahead, tail⟩ := List.pairwise_cons.mp sorted
    by_cases early : first.rid ≤ w
    · have rest := ih tail
      simp [early, Nat.not_lt.mpr early, rest]
    · have later : ∀ row ∈ rest, ¬ row.rid ≤ w := fun row member => by
        have order := ahead row member
        omega
      have none : rest.filter (fun row => row.rid ≤ w) = [] := List.filter_eq_nil_iff.mpr fun row member => by
        simpa using later row member
      have rest := ih tail
      rw [none, List.nil_append] at rest
      rw [List.filter_cons_of_neg (by simpa using early), List.filter_cons_of_pos (by simpa using early), none, rest, List.nil_append]

end LpTerminal.Emerging
