import LpTerminal.Catalog.LogWindows
import LpTerminal.Catalog.Rows
import LpTerminal.Lib.Trace

/-!
The log tail: which pools changed since the last block it processed, asked by event signature, and the sweep of
exactly those. The cursor is written last.
-/

namespace LpTerminal.Logtail

export Catalog (Address)
open Catalog (AdaptiveLogScanOptions LogWindow PoolProto ScanFailure Settled scanAdaptiveLogWindows)
open Durable

inductive EventName
  | sync | swap | mint | burn
  deriving DecidableEq

inductive AbiType
  | address | int24 | int256 | uint112 | uint128 | uint160 | uint256
  deriving DecidableEq

/-- What a selector is made of. Distinct signatures have distinct selectors. -/
structure EventSignature where
  name : EventName
  inputs : List AbiType
  deriving DecidableEq

def syncEvent : EventSignature := ⟨.sync, [.uint112, .uint112]⟩

def swapEvent : EventSignature := ⟨.swap, [.address, .address, .int256, .int256, .uint160, .uint128, .int24]⟩

def mintEvent : EventSignature := ⟨.mint, [.address, .address, .int24, .int24, .uint128, .uint256, .uint256]⟩

def burnEvent : EventSignature := ⟨.burn, [.address, .int24, .int24, .uint128, .uint256, .uint256]⟩

def pancakeSwapEvent : EventSignature := ⟨.swap, swapEvent.inputs ++ [.uint128, .uint128]⟩

def TOPICS : List EventSignature := [syncEvent, swapEvent, mintEvent, burnEvent]

def changeEvents : PoolProto → List EventSignature
  | .univ2 => [syncEvent]
  | .pancakev2 => [syncEvent]
  | .univ3 => [swapEvent, mintEvent, burnEvent]
  | .up33cl => [swapEvent, mintEvent, burnEvent]
  | .pancakev3 => [pancakeSwapEvent, mintEvent, burnEvent]

structure ChainLog where
  address : Address
  event : EventSignature

structure View where
  logs : Nat → List ChainLog
  catalog : Address → Option PoolProto

/-- The address emits one of the events in a block from `first` on and before `ends`. -/
def View.Emitted (view : View) (events : List EventSignature) (address : Address) (first ends : Nat) : Prop :=
  ∃ block, first ≤ block ∧ block < ends ∧ ∃ log ∈ view.logs block, log.address = address ∧ log.event ∈ events

/-- The cursor of `kv`, and the addresses the running call has collected. -/
structure Store where
  logtailBlock : Option Nat
  dirty : List Address

def Store.fresh : Store := ⟨none, []⟩

structure Reply where
  blockNumber : Option Nat
  getLogs : Settled
  swept : Bool

abbrev Tail := Durable ScanFailure (Process Store Reply)

def logtailWindow (cursor head maxBlocks : Nat) : Nat × Nat :=
  if cursor = 0 then (head, 0)
  else
    let first := max (cursor + 1) (head + 1 - maxBlocks)
    (first, first - cursor - 1)

def addAddress (dirty : List Address) (address : Address) : List Address :=
  if address ∈ dirty then dirty else dirty ++ [address]

def rowsIn (view : View) (window : LogWindow) : List ChainLog :=
  (List.range' window.fromBlock (window.toBlock + 1 - window.fromBlock)).flatMap fun block =>
    (view.logs block).filter fun log => log.event ∈ TOPICS

def commitWindow (view : View) (window : LogWindow) (store : Store) : Store × List Unit :=
  ({ store with dirty := ((rowsIn view window).map ChainLog.address).foldl addAddress store.dirty }, [])

def scanOptions (view : View) (fromBlock toBlock maxWindowBlocks : Nat) : AdaptiveLogScanOptions Store Unit where
  fromBlock
  toBlock
  maxWindowBlocks
  concurrency := 1
  commitWindow := commitWindow view

def collectLogtailDirtyAddresses (view : View) (fromBlock toBlock maxWindowBlocks : Nat) : Tail (List Address) := do
  commit fun store => { store with dirty := [] }
  let _ ← scanAdaptiveLogWindows (scanOptions view fromBlock toBlock maxWindowBlocks) Reply.getLogs
  let process ← read
  pure process.store.dirty

/-- What a run of the tail did: its head, what it gave up, and what it passed to `sweepState`. -/
structure TailRun where
  head : Nat
  dropped : Nat
  swept : List Address

def sweepState (dirty : List Address) : Tail Unit :=
  if dirty = [] then pure () else await .stopped fun reply => if reply.swept then .ok () else .error .request

def logtail (logtailMaxBlocks : Nat) (view : View) : Tail TailRun := do
  let head ← await .stopped fun reply => match reply.blockNumber with
    | some block => .ok block
    | none => .error .request
  let process ← read
  let window := logtailWindow (process.store.logtailBlock.getD 0) head logtailMaxBlocks
  if head < window.1 then pure ⟨head, window.2, []⟩
  else do
    let dirty ← collectLogtailDirtyAddresses view window.1 head logtailMaxBlocks
    sweepState dirty
    commit fun store => { store with logtailBlock := some head }
    pure ⟨head, window.2, dirty⟩

variable {stored : Option Nat}

section

variable {view : View} {store : Store} {cursor head maxBlocks first last : Nat} {address : Address}

@[simp] theorem mem_addAddress {dirty : List Address} {other : Address} : address ∈ addAddress dirty other ↔ address ∈ dirty ∨ address = other := by
  unfold addAddress
  split
  · rename_i known
    constructor
    · exact Or.inl
    · rintro (before | rfl)
      · exact before
      · exact known
  · rw [List.mem_append, List.mem_singleton]

theorem mem_foldl_addAddress {added dirty : List Address} : address ∈ added.foldl addAddress dirty ↔ address ∈ dirty ∨ address ∈ added := by
  induction added generalizing dirty with
  | nil => simp
  | cons other rest ih =>
    rw [List.foldl_cons, ih, mem_addAddress, List.mem_cons, or_assoc]

theorem mem_rowsIn {window : LogWindow} :
    address ∈ (rowsIn view window).map ChainLog.address ↔ view.Emitted TOPICS address window.fromBlock (window.toBlock + 1) := by
  unfold rowsIn View.Emitted
  simp only [List.mem_map, List.mem_flatMap, List.mem_range'_1, List.mem_filter, decide_eq_true_eq]
  constructor
  · rintro ⟨log, ⟨block, within, listed, topic⟩, same⟩
    exact ⟨block, within.1, by omega, log, listed, same, topic⟩
  · rintro ⟨block, least, most, log, listed, same, topic⟩
    exact ⟨log, ⟨block, ⟨least, by omega⟩, listed, topic⟩, same⟩

theorem View.emitted_append {events : List EventSignature} {middle ends : Nat} (before : first ≤ middle) (after : middle ≤ ends) :
    view.Emitted events address first middle ∨ view.Emitted events address middle ends ↔ view.Emitted events address first ends := by
  constructor
  · rintro (⟨block, least, most, emitted⟩ | ⟨block, least, most, emitted⟩)
    · exact ⟨block, least, by omega, emitted⟩
    · exact ⟨block, by omega, most, emitted⟩
  · rintro ⟨block, least, most, emitted⟩
    rcases lt_or_ge block middle with early | late
    · exact Or.inl ⟨block, least, early, emitted⟩
    · exact Or.inr ⟨block, late, most, emitted⟩

theorem View.emitted_widen {events more : List EventSignature} {start ends stop : Nat} (events_sub : events ⊆ more) (least : start ≤ first)
    (most : ends ≤ stop) (emitted : view.Emitted events address first ends) : view.Emitted more address start stop := by
  obtain ⟨block, after, before, log, listed, same, event⟩ := emitted
  exact ⟨block, by omega, by omega, log, listed, same, events_sub event⟩

/-- Of the blocks before `lo`, exactly the emitting addresses are collected. -/
structure Collected (view : View) (cursor : Option Nat) (first lo : Nat) (store : Store) : Prop where
  kept : store.logtailBlock = cursor
  reached : first ≤ lo
  exactly : ∀ address, address ∈ store.dirty ↔ view.Emitted TOPICS address first lo

theorem commitWindow_collects {lo hi : Nat} (ordered : lo ≤ hi) (collected : Collected view stored first lo store) :
    Collected view stored first (hi + 1) (commitWindow view ⟨lo, hi⟩ store).1 := by
  refine ⟨collected.kept, by have := collected.reached; omega, fun address => ?_⟩
  change address ∈ ((rowsIn view ⟨lo, hi⟩).map ChainLog.address).foldl addAddress store.dirty ↔ _
  rw [mem_foldl_addAddress, mem_rowsIn, collected.exactly]
  exact View.emitted_append collected.reached (by dsimp only; omega)

theorem collect_collects (first maxWindowBlocks : Nat) (some : first ≤ head) :
    Triple (Stored fun store => store.logtailBlock = stored) (collectLogtailDirtyAddresses view first head maxWindowBlocks)
      (fun dirty process => process.store.logtailBlock = stored ∧ ∀ address, address ∈ dirty ↔ view.Emitted TOPICS address first (head + 1))
      (Stored fun store => store.logtailBlock = stored) := by
  unfold collectLogtailDirtyAddresses
  refine triple_bind (Q := fun _ => Stored (Collected view stored first first)) (triple_commit fun store kept => ?_) fun _ => ?_
  · refine ⟨kept, le_rfl, fun address => iff_of_false List.not_mem_nil ?_⟩
    rintro ⟨block, least, most, _⟩
    omega
  · have scanned := @Catalog.AdaptiveLogScan.scan_keeps Store Reply Unit (scanOptions view first head maxWindowBlocks) Reply.getLogs
      (Collected view stored first) fun lo hi store ordered _ collected => commitWindow_collects ordered collected
    refine triple_bind (triple_weaken scanned (fun _ => id) (fun _ _ => id) ?_) fun _ => ?_
    · rintro process ⟨lo, collected⟩
      exact collected.kept
    · refine triple_each fun process collected => triple_read_at (triple_pure fun final same => ?_)
      have whole : max first (head + 1) = head + 1 := by omega
      change Collected view stored first (max first (head + 1)) process.store at collected
      rw [whole] at collected
      rw [same]
      exact ⟨collected.kept, collected.exactly⟩

theorem sweepState_keeps {dirty : List Address} {P : Store → Prop} : Triple (Stored P) (sweepState dirty) (fun _ => Stored P) (Stored P) := by
  unfold sweepState
  split
  · exact triple_pure fun _ => id
  · exact triple_await

/-- What a run leaves that returned: it swept exactly what emitted a tracked event from its first block to its head. -/
structure Tailed (view : View) (cursor maxBlocks : Nat) (run : TailRun) : Prop where
  dropped : run.dropped = (logtailWindow cursor run.head maxBlocks).2
  swept : ∀ address, address ∈ run.swept ↔ view.Emitted TOPICS address (logtailWindow cursor run.head maxBlocks).1 (run.head + 1)

theorem logtail_tails (store : Store) :
    Triple (Stored (· = store)) (logtail maxBlocks view) (fun run _ => Tailed view (store.logtailBlock.getD 0) maxBlocks run)
      (Stored fun left => left.logtailBlock = store.logtailBlock) := by
  unfold logtail
  refine triple_await_bind ?_ fun head => triple_each fun process same => triple_read_at ?_
  · rintro process rfl
    rfl
  · have told : process.store = store := same
    dsimp only
    rw [told]
    split
    · rename_i ahead
      refine triple_pure fun _ _ => ⟨rfl, fun address => iff_of_false List.not_mem_nil ?_⟩
      rintro ⟨block, least, most, _⟩
      dsimp only at least most
      omega
    · rename_i within
      refine triple_bind (triple_weaken (collect_collects _ maxBlocks (not_lt.mp within)) ?_ (fun _ _ => id) fun _ => id) fun dirty => ?_
      · rintro _ rfl
        exact congrArg Store.logtailBlock told
      · refine triple_each fun collected holds => ?_
        refine triple_bind (Q := fun _ _ => True) ?_ fun _ => triple_bind (Q := fun _ _ => True) (triple_write fun _ _ => trivial) fun _ =>
          triple_pure fun _ _ => ⟨rfl, holds.2⟩
        refine triple_weaken (@sweepState_keeps dirty fun left => left.logtailBlock = store.logtailBlock) ?_ (fun _ _ _ => trivial) fun _ => id
        rintro _ rfl
        exact holds.1

end

/-- A call of the tail: the chain it meets, and the replies it gets before the process ends. -/
structure Call where
  view : View
  replies : List Reply

def step (logtailMaxBlocks : Nat) (store : Store) (call : Call) : Store :=
  (left (logtail logtailMaxBlocks call.view) ⟨store, call.replies⟩).store

def Swept (view : View) (stored : Option Nat) (run : TailRun) : Prop :=
  ∀ cursor, stored = some cursor → ∀ address proto, view.catalog address = some proto →
    view.Emitted (changeEvents proto) address (cursor + 1) (run.head + 1) → address ∈ run.swept

/-- After a cursor, what a PancakeSwap v3 swap changed also emitted a tracked event; after the cursor zero, which is taken
for none, what changed at all did so in the head's block. -/
def Visible (view : View) (stored : Option Nat) (head : Nat) : Prop :=
  ∀ cursor, stored = some cursor →
    (cursor ≠ 0 → ∀ address, view.catalog address = some .pancakev3 →
      view.Emitted [pancakeSwapEvent] address (cursor + 1) (head + 1) → view.Emitted TOPICS address (cursor + 1) (head + 1)) ∧
    (cursor = 0 → ∀ address proto, view.catalog address = some proto →
      view.Emitted (changeEvents proto) address 1 (head + 1) → view.Emitted TOPICS address head (head + 1))

section

variable {view : View} {maxBlocks cursor : Nat} {run : TailRun}

theorem logtailWindow_whole (some : cursor ≠ 0) {head : Nat} (nothing : (logtailWindow cursor head maxBlocks).2 = 0) :
    (logtailWindow cursor head maxBlocks).1 = cursor + 1 := by
  unfold logtailWindow at *
  rw [if_neg some] at *
  dsimp only at *
  omega

-- at the cap a window goes on where the last one ended; beyond it the oldest blocks are given up
example : logtailWindow 1000 6000 5000 = (1001, 0) ∧ logtailWindow 1000 7000 5000 = (2001, 1000) := by decide

theorem changeEvents_tracked {proto : PoolProto} {event : EventSignature} (change : event ∈ changeEvents proto) :
    event ∈ TOPICS ∨ (proto = .pancakev3 ∧ event = pancakeSwapEvent) := by
  cases proto with
  | pancakev3 =>
    rcases List.mem_cons.mp change with swap | other
    · exact Or.inr ⟨rfl, swap⟩
    · exact Or.inl (List.mem_cons_of_mem _ (List.mem_cons_of_mem _ other))
  | univ2 => exact Or.inl (List.cons_subset_cons syncEvent (List.nil_subset _) change)
  | pancakev2 => exact Or.inl (List.cons_subset_cons syncEvent (List.nil_subset _) change)
  | univ3 => exact Or.inl (List.mem_cons_of_mem _ change)
  | up33cl => exact Or.inl (List.mem_cons_of_mem _ change)

theorem emitted_tracked {proto : PoolProto} {address : Address} {first ends : Nat} (changed : view.Emitted (changeEvents proto) address first ends) :
    view.Emitted TOPICS address first ends ∨ (proto = .pancakev3 ∧ view.Emitted [pancakeSwapEvent] address first ends) := by
  obtain ⟨block, least, most, log, listed, same, event⟩ := changed
  rcases changeEvents_tracked event with tracked | ⟨pancake, swap⟩
  · exact Or.inl ⟨block, least, most, log, listed, same, tracked⟩
  · exact Or.inr ⟨pancake, block, least, most, log, listed, same, List.mem_singleton.mpr swap⟩

theorem swept_iff (tailed : Tailed view (stored.getD 0) maxBlocks run) (nothing : run.dropped = 0) :
    Swept view stored run ↔ Visible view stored run.head := by
  have window := nothing
  rw [tailed.dropped] at window
  unfold Swept Visible
  apply forall_congr'
  intro cursor
  apply forall_congr'
  rintro rfl
  simp only [tailed.swept]
  change (logtailWindow cursor _ _).2 = 0 at window
  change (∀ address proto, _ → _ → view.Emitted TOPICS address (logtailWindow cursor _ _).1 _) ↔ _
  by_cases zero : cursor = 0
  · subst zero
    constructor
    · exact fun swept => ⟨fun some => absurd rfl some, fun _ => swept⟩
    · exact fun visible => visible.2 rfl
  · rw [logtailWindow_whole zero window]
    constructor
    · refine fun swept => ⟨fun _ address known swapped => swept address _ known ?_, fun none => absurd none zero⟩
      exact View.emitted_widen (List.cons_subset_cons _ (List.nil_subset _)) le_rfl le_rfl swapped
    · intro visible address proto known changed
      rcases emitted_tracked changed with tracked | ⟨rfl, swapped⟩
      · exact tracked
      · exact visible.1 zero address known swapped

end

/-- After any earlier calls, a call that throws leaves the cursor, and one that gave nothing up swept all that changed
exactly where all that changed was visible. -/
theorem logtail_exact (logtailMaxBlocks : Nat) (earlier : List Call) (call : Call) :
    let store := Trace.run (step logtailMaxBlocks) Store.fresh earlier
    match (logtail logtailMaxBlocks call.view).run ⟨store, call.replies⟩ with
    | (.error _, after) => after.store.logtailBlock = store.logtailBlock
    | (.ok run, _) => run.dropped = 0 → (Swept call.view store.logtailBlock run ↔ Visible call.view store.logtailBlock run.head) := by
  intro store
  have tails := @logtail_tails call.view logtailMaxBlocks store ⟨store, call.replies⟩ rfl
  rcases ran : (logtail logtailMaxBlocks call.view).run ⟨store, call.replies⟩ with ⟨outcome, after⟩
  rw [ran] at tails
  cases outcome with
  | error _ => exact tails
  | ok run => exact fun nothing => swept_iff tails nothing

def quiet : View := ⟨fun _ => [], fun _ => none⟩

def swapped : View where
  logs block := if block = 11 then [⟨7, pancakeSwapEvent⟩] else []
  catalog address := if address = 7 then some .pancakev3 else none

theorem pancake_swap_unswept : ¬ ∀ (logtailMaxBlocks : Nat) (earlier : List Call) (call : Call) (run : TailRun) (after : Process Store Reply),
    (logtail logtailMaxBlocks call.view).run ⟨Trace.run (step logtailMaxBlocks) Store.fresh earlier, call.replies⟩ = (.ok run, after) →
    run.dropped = 0 → Swept call.view (Trace.run (step logtailMaxBlocks) Store.fresh earlier).logtailBlock run := by
  intro all
  have sweeps := all 5 [⟨quiet, [⟨some 10, .fulfilled, true⟩, ⟨none, .fulfilled, true⟩, ⟨none, .fulfilled, true⟩]⟩]
    ⟨swapped, [⟨some 12, .fulfilled, true⟩, ⟨none, .fulfilled, true⟩, ⟨none, .fulfilled, true⟩]⟩ ⟨12, 0, []⟩ ⟨⟨some 12, []⟩, []⟩ rfl rfl
  exact absurd (sweeps 10 rfl 7 .pancakev3 rfl ⟨11, by decide, by decide, ⟨7, pancakeSwapEvent⟩, List.mem_cons_self, rfl, by decide⟩) List.not_mem_nil

end LpTerminal.Logtail
