import LpTerminal.Catalog.Rows
import LpTerminal.Lib.Trace

/-!
How the discovery sweep reads the two catalogs into its ledger: the bound of the reads, the upserts, and the watermarks that it
stores once it is done. Ages, demotion and admission follow in the same sweep and are not part of this module.
-/

namespace LpTerminal.Emerging.Discovery

open Catalog (Digest PoolProto)
export Catalog (Address)

/-- The keys of `CURSOR_KEYS`. -/
inductive Source
  | v4
  | v23

inductive Venue
  | up33Cl
  | univ3
  | univ4
deriving DecidableEq

structure V4Row where
  poolId : Digest
  currency0 : Address
  currency1 : Address
  createdBlock : Option ℕ
  addedTs : ℤ

structure PoolRow where
  address : Address
  proto : PoolProto
  token0 : Address
  token1 : Address
  createdBlock : Option ℕ
  addedTs : ℤ

structure SourceRow where
  venue : Venue
  canonicalId : ℕ
  token0 : Address
  token1 : Address
  poolCreatedBlock : Option ℕ
  addedTs : ℤ

def SourceRow.poolKey (row : SourceRow) : Venue × ℕ := (row.venue, row.canonicalId)

structure LedgerEntry where
  poolKey : Venue × ℕ
  token0 : Address
  token1 : Address
  firstSeenAt : ℤ

structure Database where
  v4Pools : List V4Row
  pools : List PoolRow
  /-- `emerging_discovery`. -/
  ledger : List LedgerEntry
  cursors : Source → ℤ

def V4Row.sourceRow (row : V4Row) : SourceRow :=
  { venue := .univ4, canonicalId := row.poolId, token0 := row.currency0, token1 := row.currency1
    poolCreatedBlock := row.createdBlock, addedTs := row.addedTs }

def PoolRow.sourceRow (row : PoolRow) : SourceRow :=
  { venue := if row.proto = .univ3 then .univ3 else .up33Cl, canonicalId := row.address, token0 := row.token0, token1 := row.token1
    poolCreatedBlock := row.createdBlock, addedTs := row.addedTs }

/-- `proto IN ('up33cl', 'univ3')`. -/
def PoolRow.listed (row : PoolRow) : Bool := row.proto = .up33cl || row.proto = .univ3

def sourceRows (db : Database) : Source → List SourceRow
  | .v4 => db.v4Pools.map V4Row.sourceRow
  | .v23 => (db.pools.filter PoolRow.listed).map PoolRow.sourceRow

/-- `WHERE added_ts > ? ORDER BY added_ts ASC`. -/
def rowsAfter (db : Database) (source : Source) (afterTs : ℤ) : List SourceRow :=
  ((sourceRows db source).filter fun row => afterTs < row.addedTs).mergeSort fun first second => first.addedTs ≤ second.addedTs

def readBound (cursor overlap : ℤ) : ℤ := if overlap < cursor then cursor else overlap

/-- `ON CONFLICT(pool_key) DO NOTHING`. -/
def upsertEmergingDiscovery (seenAt : ℤ) (ledger : List LedgerEntry) (row : SourceRow) : List LedgerEntry :=
  if ledger.any fun entry => entry.poolKey = row.poolKey then ledger
  else ledger ++ [{ poolKey := row.poolKey, token0 := row.token0, token1 := row.token1, firstSeenAt := seenAt }]

structure Sweep where
  cursors : Source → ℤ
  rows : Source → List SourceRow

/-- `maxAdded`. -/
def maxAdded (rows : List SourceRow) : ℤ := rows.foldl (fun most row => max most row.addedTs) 0

/-- The process and its store. For the proofs: when the last sweep started, what was inserted since the first one did, and up to
which second the rows of a source have been read. -/
structure World where
  db : Database
  now : ℤ
  sweeps : List Sweep
  lastStart : Option ℤ
  since : List (Source × SourceRow)
  readTo : Source → ℤ

def sweepRows (sourceOverlapSec : ℤ) (w : World) (source : Source) : List SourceRow :=
  rowsAfter w.db source (readBound (w.db.cursors source) (w.now - sourceOverlapSec))

def sweepStarts (sourceOverlapSec : ℤ) (w : World) : World :=
  let rows := sweepRows sourceOverlapSec w
  { w with
    db := { w.db with ledger := (rows .v4 ++ rows .v23).foldl (upsertEmergingDiscovery w.now) w.db.ledger }
    sweeps := w.sweeps ++ [{ cursors := w.db.cursors, rows }]
    lastStart := some w.now
    readTo := fun source => max (w.readTo source) (maxAdded (rows source)) }

def advanceWatermarks (sweep : Sweep) (cursors : Source → ℤ) (source : Source) : ℤ :=
  if sweep.rows source = [] then cursors source else max (sweep.cursors source) (maxAdded (sweep.rows source))

def sweepEnds (i : ℕ) (w : World) : World :=
  match w.sweeps[i]? with
  | none => w
  | some sweep => { w with db := { w.db with cursors := advanceWatermarks sweep w.db.cursors }, sweeps := w.sweeps.eraseIdx i }

inductive Event
  | passes (seconds : ℕ)
  | insertV4Pool (poolId : Digest) (currency0 currency1 : Address) (createdBlock : Option ℕ)
  | insertPool (address : Address) (proto : PoolProto) (token0 token1 : Address) (createdBlock : Option ℕ)
  | sweepStarts
  | sweepEnds (i : ℕ)
  /-- A sweep that throws before its watermarks. -/
  | sweepThrows (i : ℕ)
  | restarts

def track (source : Source) (row : SourceRow) (w : World) : World :=
  if w.lastStart.isSome then { w with since := w.since ++ [(source, row)] } else w

def insertV4Pool (row : V4Row) (w : World) : World :=
  if w.db.v4Pools.any fun other => other.poolId = row.poolId then w
  else track .v4 row.sourceRow { w with db := { w.db with v4Pools := w.db.v4Pools ++ [row] } }

def insertPool (row : PoolRow) (w : World) : World :=
  if w.db.pools.any fun other => other.address = row.address then w
  else
    let w := { w with db := { w.db with pools := w.db.pools ++ [row] } }
    if row.listed then track .v23 row.sourceRow w else w

def step (sourceOverlapSec : ℤ) (w : World) : Event → World
  | .passes seconds => { w with now := w.now + seconds }
  | .insertV4Pool poolId currency0 currency1 createdBlock =>
    insertV4Pool { poolId, currency0, currency1, createdBlock, addedTs := w.now } w
  | .insertPool address proto token0 token1 createdBlock =>
    insertPool { address, proto, token0, token1, createdBlock, addedTs := w.now } w
  | .sweepStarts => sweepStarts sourceOverlapSec w
  | .sweepEnds i => sweepEnds i w
  | .sweepThrows i => { w with sweeps := w.sweeps.eraseIdx i }
  | .restarts => { w with sweeps := [] }

def World.fresh (now : ℤ) (v4Pools : List V4Row) (pools : List PoolRow) : World :=
  { db := { v4Pools, pools, ledger := [], cursors := fun _ => 0 }, now, sweeps := [], lastStart := none, since := []
    readTo := fun _ => 0 }

variable {w : World} {sourceOverlapSec : ℤ}

def InLedger (ledger : List LedgerEntry) (row : SourceRow) : Prop := ∃ entry ∈ ledger, entry.poolKey = row.poolKey

instance (ledger : List LedgerEntry) (row : SourceRow) : Decidable (InLedger ledger row) :=
  inferInstanceAs (Decidable (∃ _ ∈ _, _))

def Found (w : World) : Prop :=
  ∀ entry ∈ w.since, ∀ start ∈ w.lastStart, entry.2.addedTs < start → InLedger w.db.ledger entry.2

/-- No row comes in a second that a sweep has read rows of its catalog from, and no sweep starts the overlap or more after the
insert of a row that is not in the ledger. -/
def Timely (sourceOverlapSec : ℤ) (w : World) : Event → Prop
  | .insertV4Pool .. => w.readTo .v4 < w.now
  | .insertPool _ proto .. => proto = .up33cl ∨ proto = .univ3 → w.readTo .v23 < w.now
  | .sweepStarts => ∀ entry ∈ w.since, ¬ InLedger w.db.ledger entry.2 → w.now < entry.2.addedTs + sourceOverlapSec
  | _ => True

instance (w : World) : Decidable (Found w) := inferInstanceAs (Decidable (∀ entry ∈ w.since, ∀ start ∈ w.lastStart, _ → _))

instance (w : World) (event : Event) : Decidable (Timely sourceOverlapSec w event) :=
  match event with
  | .insertV4Pool .. => inferInstanceAs (Decidable (_ < _))
  | .insertPool _ proto .. => inferInstanceAs (Decidable (proto = .up33cl ∨ proto = .univ3 → _ < _))
  | .sweepStarts => inferInstanceAs (Decidable (∀ entry ∈ w.since, ¬ InLedger w.db.ledger entry.2 → _ < _))
  | .passes _ => .isTrue trivial
  | .sweepEnds _ => .isTrue trivial
  | .sweepThrows _ => .isTrue trivial
  | .restarts => .isTrue trivial

variable {ledger : List LedgerEntry}

theorem upsert_keeps {seenAt : ℤ} {row other : SourceRow} (known : InLedger ledger row) :
    InLedger (upsertEmergingDiscovery seenAt ledger other) row := by
  obtain ⟨entry, inside, same⟩ := known
  unfold upsertEmergingDiscovery
  split
  · exact ⟨entry, inside, same⟩
  · exact ⟨entry, List.mem_append_left _ inside, same⟩

theorem upsert_own (seenAt : ℤ) (ledger : List LedgerEntry) (row : SourceRow) :
    InLedger (upsertEmergingDiscovery seenAt ledger row) row := by
  unfold upsertEmergingDiscovery
  split
  · rename_i known
    obtain ⟨entry, inside, same⟩ := List.any_eq_true.mp known
    exact ⟨entry, inside, of_decide_eq_true same⟩
  · exact ⟨_, List.mem_append_right _ (List.mem_singleton_self _), rfl⟩

variable {row : SourceRow}

theorem upserts_keep {seenAt : ℤ} {rows : List SourceRow} (known : InLedger ledger row) :
    InLedger (rows.foldl (upsertEmergingDiscovery seenAt) ledger) row := by
  induction rows generalizing ledger with
  | nil => exact known
  | cons other rest ih => exact ih (upsert_keeps known)

theorem upserts_find {seenAt : ℤ} {rows : List SourceRow} (read : row ∈ rows) :
    InLedger (rows.foldl (upsertEmergingDiscovery seenAt) ledger) row := by
  induction rows generalizing ledger with
  | nil => cases read
  | cons other rest ih =>
    rcases List.mem_cons.mp read with rfl | later
    · rw [List.foldl_cons]
      exact upserts_keep (upsert_own seenAt ledger row)
    · exact ih later

theorem readBound_lt {cursor overlap addedTs : ℤ} : readBound cursor overlap < addedTs ↔ cursor < addedTs ∧ overlap < addedTs := by
  unfold readBound
  split
  · exact ⟨fun past => ⟨past, by omega⟩, fun both => both.1⟩
  · exact ⟨fun past => ⟨by omega, past⟩, fun both => both.2⟩

theorem mem_sweepRows {source : Source} :
    row ∈ sweepRows sourceOverlapSec w source ↔
      row ∈ sourceRows w.db source ∧ w.db.cursors source < row.addedTs ∧ w.now - sourceOverlapSec < row.addedTs := by
  unfold sweepRows rowsAfter
  rw [List.mem_mergeSort, List.mem_filter, decide_eq_true_eq, readBound_lt]

structure Law (w : World) : Prop where
  none : w.lastStart = none → w.since = []
  listed : ∀ entry ∈ w.since, entry.2 ∈ sourceRows w.db entry.1
  waiting : ∀ entry ∈ w.since, InLedger w.db.ledger entry.2 ∨
    w.readTo entry.1 < entry.2.addedTs ∧ ∀ start ∈ w.lastStart, start ≤ entry.2.addedTs
  cursors : ∀ source, w.db.cursors source ≤ w.readTo source
  sweeps : ∀ sweep ∈ w.sweeps, ∀ source, sweep.cursors source ≤ w.readTo source ∧ maxAdded (sweep.rows source) ≤ w.readTo source
  clock : ∀ start ∈ w.lastStart, start ≤ w.now

theorem Law.found (law : Law w) : Found w := by
  intro entry inside start started earlier
  rcases law.waiting entry inside with known | ⟨-, after⟩
  · exact known
  · have late := after start started
    omega

theorem fresh_law (now : ℤ) (v4Pools : List V4Row) (pools : List PoolRow) : Law (World.fresh now v4Pools pools) where
  none _ := rfl
  listed := by simp [World.fresh]
  waiting := by simp [World.fresh]
  cursors _ := le_refl 0
  sweeps := by simp [World.fresh]
  clock := by simp [World.fresh]

theorem track_law {source : Source} (law : Law w) (own : row ∈ sourceRows w.db source) (now : row.addedTs = w.now)
    (fresh : w.readTo source < w.now) : Law (track source row w) := by
  unfold track
  split
  · rename_i started
    constructor
    · intro none
      have unswept : w.lastStart = Option.none := none
      rw [unswept] at started
      cases started
    · intro entry inside
      rcases List.mem_append.mp inside with old | new
      · exact law.listed entry old
      · rw [List.mem_singleton.mp new]
        exact own
    · intro entry inside
      rcases List.mem_append.mp inside with old | new
      · exact law.waiting entry old
      · rw [List.mem_singleton.mp new]
        refine .inr ⟨by dsimp only; omega, fun start begun => ?_⟩
        have clock := law.clock start begun
        dsimp only
        omega
    · exact law.cursors
    · exact law.sweeps
    · exact law.clock
  · exact law

theorem rows_law {db : Database} (law : Law w) (ledger : db.ledger = w.db.ledger) (cursors : db.cursors = w.db.cursors)
    (more : ∀ source row, row ∈ sourceRows w.db source → row ∈ sourceRows db source) : Law { w with db } where
  none := law.none
  listed entry inside := more entry.1 entry.2 (law.listed entry inside)
  waiting entry inside := by
    dsimp only
    rw [ledger]
    exact law.waiting entry inside
  cursors source := by
    dsimp only
    rw [cursors]
    exact law.cursors source
  sweeps := law.sweeps
  clock := law.clock

theorem insertV4Pool_law {row : V4Row} (law : Law w) (now : row.addedTs = w.now) (fresh : w.readTo .v4 < w.now) :
    Law (insertV4Pool row w) := by
  unfold insertV4Pool
  split
  · exact law
  · refine track_law (rows_law law rfl rfl ?_) ?_ now fresh
    · intro source other inside
      cases source with
      | v4 =>
        simp only [sourceRows, List.map_append] at inside ⊢
        exact List.mem_append_left _ inside
      | v23 => exact inside
    · simp [sourceRows]

theorem insertPool_law {row : PoolRow} (law : Law w) (now : row.addedTs = w.now) (fresh : row.listed = true → w.readTo .v23 < w.now) :
    Law (insertPool row w) := by
  unfold insertPool
  split
  · exact law
  · have grown : Law { w with db := { w.db with pools := w.db.pools ++ [row] } } := by
      refine rows_law law rfl rfl ?_
      intro source other inside
      cases source with
      | v4 => exact inside
      | v23 =>
        simp only [sourceRows, List.filter_append, List.map_append] at inside ⊢
        exact List.mem_append_left _ inside
    dsimp only
    split
    · rename_i listed
      refine track_law grown ?_ now (fresh listed)
      simp [sourceRows, listed]
    · exact grown

theorem sweepStarts_law (law : Law w) (timely : Timely sourceOverlapSec w .sweepStarts) : Law (sweepStarts sourceOverlapSec w) := by
  -- every row that waits is past both parts of the bound
  have all : ∀ entry ∈ w.since, InLedger (sweepStarts sourceOverlapSec w).db.ledger entry.2 := by
    intro entry inside
    by_cases known : InLedger w.db.ledger entry.2
    · exact upserts_keep known
    · rcases law.waiting entry inside with old | ⟨unread, -⟩
      · exact absurd old known
      · have recent := timely entry inside known
        have cursor := law.cursors entry.1
        have read : entry.2 ∈ sweepRows sourceOverlapSec w entry.1 :=
          mem_sweepRows.mpr ⟨law.listed entry inside, by omega, by omega⟩
        refine upserts_find (List.mem_append.mpr ?_)
        obtain ⟨source, row⟩ := entry
        cases source with
        | v4 => exact .inl read
        | v23 => exact .inr read
  constructor
  · intro none
    cases none
  · exact law.listed
  · exact fun entry inside => .inl (all entry inside)
  · exact fun source => (law.cursors source).trans (le_max_left _ _)
  · intro sweep inside source
    rcases List.mem_append.mp inside with old | new
    · have bounds := law.sweeps sweep old source
      exact ⟨bounds.1.trans (le_max_left _ _), bounds.2.trans (le_max_left _ _)⟩
    · rw [List.mem_singleton.mp new]
      exact ⟨(law.cursors source).trans (le_max_left _ _), le_max_right _ _⟩
  · intro start begun
    exact (Option.some.inj begun).symm.le

theorem sweepEnds_law (law : Law w) (i : ℕ) : Law (sweepEnds i w) := by
  unfold sweepEnds
  split
  · exact law
  · rename_i sweep found
    have bounds := law.sweeps sweep (List.mem_of_getElem? found)
    constructor
    · exact law.none
    · exact law.listed
    · exact law.waiting
    · intro source
      show advanceWatermarks sweep w.db.cursors source ≤ _
      unfold advanceWatermarks
      split
      · exact law.cursors source
      · exact max_le (bounds source).1 (bounds source).2
    · exact fun other inside => law.sweeps other (List.mem_of_mem_eraseIdx inside)
    · exact law.clock

theorem step_law (law : Law w) (event : Event) (timely : Timely sourceOverlapSec w event) : Law (step sourceOverlapSec w event) := by
  cases event with
  | passes seconds =>
    refine ⟨law.none, law.listed, law.waiting, law.cursors, law.sweeps, fun start begun => ?_⟩
    have clock := law.clock start begun
    simp only [step]
    omega
  | insertV4Pool poolId currency0 currency1 createdBlock => exact insertV4Pool_law law rfl timely
  | insertPool address proto token0 token1 createdBlock =>
    refine insertPool_law law rfl fun listed => timely ?_
    simpa [PoolRow.listed] using listed
  | sweepStarts => exact sweepStarts_law law timely
  | sweepEnds i => exact sweepEnds_law law i
  | sweepThrows i =>
    exact ⟨law.none, law.listed, law.waiting, law.cursors, fun sweep inside => law.sweeps sweep (List.mem_of_mem_eraseIdx inside), law.clock⟩
  | restarts => exact ⟨law.none, law.listed, law.waiting, law.cursors, by simp [step], law.clock⟩

/-- In every run whose steps are timely, each row inserted since the first sweep is in the ledger after the next sweep that starts
later than its second. -/
theorem pools_found (sourceOverlapSec now : ℤ) (v4Pools : List V4Row) (pools : List PoolRow) (events : List Event)
    (timely : Trace.Along (step sourceOverlapSec) (Timely sourceOverlapSec) (World.fresh now v4Pools pools) events) :
    Found (Trace.run (step sourceOverlapSec) (World.fresh now v4Pools pools) events) := by
  have steps : ∀ w event, Law w → Timely sourceOverlapSec w event → Law (step sourceOverlapSec w event) :=
    fun _ event law holds => step_law law event holds
  exact (Trace.run_keeps steps (fresh_law now v4Pools pools) timely).found

/-- A pool inserted ten seconds after a sweep, with the next sweep half a minute later. -/
theorem pools_found_minute :
    Found (Trace.run (step 600) (World.fresh 1000 [] []) [.sweepStarts, .sweepEnds 0, .passes 10, .insertV4Pool 1 2 3 none,
      .passes 30, .sweepStarts, .sweepEnds 0]) :=
  pools_found 600 1000 [] [] _ (by decide +kernel)

/-- A sweep that comes after a pause longer than the overlap, and one after an insert in the second of the cursor. -/
theorem pools_skipped :
    ¬ Found (Trace.run (step 600) (World.fresh 1000 [] []) [.sweepStarts, .sweepEnds 0, .passes 10, .insertV4Pool 1 2 3 none,
        .passes 700, .sweepStarts, .sweepEnds 0]) ∧
      ¬ Found (Trace.run (step 600) (World.fresh 1000 [] []) [.sweepStarts, .sweepEnds 0, .insertV4Pool 1 2 3 none,
        .sweepStarts, .sweepEnds 0, .insertV4Pool 2 2 3 none, .passes 60, .sweepStarts, .sweepEnds 0]) := by
  decide +kernel

end LpTerminal.Emerging.Discovery
