import LpTerminal.Emerging.ReorgScan
import LpTerminal.Emerging.ScanCoverage

/-!
What the canonical events are after any sweeps, restarts and replaced blocks: the logs of the current chain, as long as no sweep
meets a replaced block in its cache, no rewind returns to a foreign block or archives an event of the chain, and no log that comes
again is stored already.
-/

namespace LpTerminal.Emerging.Reorg

open Minutes Trace

section
variable (tune : ScanTune) (limit : LimitOne) (set : TrackedSet) (blocks : Blocks) (head : ℕ)

def Wanted (kind : StreamKind) (log : RawLog) : Prop :=
  matchesStream tune.poolManager set log kind = true ∧ decodeLog set log kind ≠ none

def Stored (events : ChainEvents) (log : RawLog) : Prop :=
  ∃ row ∈ events, SameLog row log ∧ row.blockHash = log.blockHash ∧ (blocks.OnChain head log.blockHash → row.canonical = true)

/-- The row is of a log that its stream has scanned, on the chain of the stream's cursor. -/
structure Placed (scan : Scan) (row : ChainEvent) (kind : StreamKind) (cursor : Cursor) (log : RawLog) : Prop where
  listed : streamOpen set kind = true
  read : scan.store.cursors kind = some cursor
  below : blocks.OnChain cursor.blockHash row.blockHash
  scanned : scan.scannedFrom kind < row.blockNumber
  logged : log ∈ blocks.logs row.blockHash
  filtered : matchesStream tune.poolManager set log kind = true
  decoded : decodeLog set log kind = some row.toEventInsert

/-- What holds of the scanner, whatever has happened to the chain. -/
structure Sound (scan : Scan) : Prop where
  keyed : Keyed scan.events
  cursor : ∀ kind cursor, scan.store.cursors kind = some cursor →
    streamOpen set kind = true ∧ cursor.blockNumber = blocks.number cursor.blockHash ∧ scan.scannedFrom kind ≤ cursor.blockNumber
  placed : ∀ row ∈ scan.events, row.canonical = true → ∃ kind cursor log, Placed tune set blocks scan row kind cursor log
  stored : ∀ kind cursor, scan.store.cursors kind = some cursor → ∀ hash, blocks.OnChain cursor.blockHash hash →
    scan.scannedFrom kind < blocks.number hash → ∀ log ∈ blocks.logs hash, Wanted tune set kind log → Stored blocks head scan.events log

def Truthful (cache : List (ℕ × BlockInfo)) : Prop :=
  ∀ entry ∈ cache, entry.1 ≤ blocks.number head ∧ entry.2.hash = blocks.blockAt head entry.1

/-- The nearest block, among those that a walk reaches, that an event is stored of with the current hash. -/
structure Nearest (events : ChainEvents) (block ancestor : ℕ) : Prop where
  below : ancestor < block
  reached : block ≤ ancestor + min 64 32
  stored : storedHash limit events ancestor = some (blocks.blockAt head ancestor)
  first : ∀ other < block, ancestor < other → storedHash limit events other ≠ some (blocks.blockAt head other)

/-- A return to this block: the replaced block was above it, and no event above it is of the current chain. -/
structure Returns (scan : Scan) (cursor : Cursor) (ancestor : ℕ) : Prop where
  shared : blocks.OnChain cursor.blockHash (blocks.blockAt head ancestor)
  orphans : ∀ row ∈ scan.events, ancestor < row.blockNumber → ¬ blocks.OnChain head row.blockHash

def StartsAt (input : SweepInput) (scan : Scan) (kind : StreamKind) (start : ℕ) : Prop :=
  match scan.store.cursors kind with
  | none => start = seedBlock tune blocks head input
  | some cursor =>
    if blocks.OnChain head cursor.blockHash then start = cursor.blockNumber
    else Nearest limit blocks head scan.events cursor.blockNumber start

def Unclaimed (events : ChainEvents) (log : RawLog) : Prop :=
  ∀ row ∈ events, SameLog row log → row.blockHash = log.blockHash ∧ row.canonical = true

def Ahead (kind : StreamKind) (events : ChainEvents) (start : ℕ) : Prop :=
  ∀ n ≤ finalityHead tune blocks head, start < n → ∀ log ∈ blocks.logs (blocks.blockAt head n), Wanted tune set kind log →
    Unclaimed events log

structure ScansWell (input : SweepInput) (scan : Scan) (kind : StreamKind) : Prop where
  cache : Truthful blocks head scan.cache
  returns : ∀ cursor ∈ scan.store.cursors kind, ¬ blocks.OnChain head cursor.blockHash →
    ∀ ancestor < cursor.blockNumber, Nearest limit blocks head scan.events cursor.blockNumber ancestor → Returns blocks head scan cursor ancestor
  ahead : ∀ start ≤ finalityHead tune blocks head, StartsAt tune limit blocks head input scan kind start →
    Ahead tune set blocks head kind scan.events start

end

variable {log : RawLog}

section
variable {blocks : Blocks} {head : ℕ} {answered : ℕ → Bool} {s : Scan}

structure Asked (blocks : Blocks) (head : ℕ) (s s' : Scan) : Prop where
  store : s'.store = s.store
  scannedFrom : s'.scannedFrom = s.scannedFrom
  truthful : Truthful blocks head s'.cache

theorem Asked.trans {s' s'' : Scan} (first : Asked blocks head s s') (second : Asked blocks head s' s'') : Asked blocks head s s'' :=
  ⟨second.store.trans first.store, second.scannedFrom.trans first.scannedFrom, second.truthful⟩

theorem asked_spent (truthful : Truthful blocks head s.cache) (left : ℕ) : Asked blocks head s { s with left } := ⟨rfl, rfl, truthful⟩

theorem blockInfo_asked (truthful : Truthful blocks head s.cache) (n : ℕ) :
    Asked blocks head s (blockInfo blocks head answered n s).2 ∧
      ∀ info ∈ (blockInfo blocks head answered n s).1, n ≤ blocks.number head ∧ info.hash = blocks.blockAt head n := by
  unfold blockInfo
  cases cached : s.cache.lookup n with
  | some info =>
    obtain ⟨before, after, split, _⟩ := List.lookup_eq_some_iff.mp cached
    refine ⟨asked_spent truthful s.left, fun other same => ?_⟩
    obtain rfl := Option.some.inj same
    exact truthful (n, info) (by rw [split]; simp)
  | none =>
    dsimp only
    split
    · rename_i answers
      refine ⟨⟨rfl, rfl, fun entry member => ?_⟩, fun info same => ?_⟩
      · rcases List.mem_cons.mp member with rfl | old
        · exact ⟨answers.1, rfl⟩
        · exact truthful entry old
      · obtain rfl := Option.some.inj same
        exact ⟨answers.1, rfl⟩
    · exact ⟨asked_spent truthful s.left, nofun⟩

theorem reqBlockInfo_asked (truthful : Truthful blocks head s.cache) (n : ℕ) :
    Asked blocks head s (reqBlockInfo blocks head answered n s).2 ∧
      ∀ info ∈ (reqBlockInfo blocks head answered n s).1, n ≤ blocks.number head ∧ info.hash = blocks.blockAt head n := by
  unfold reqBlockInfo
  split
  · exact ⟨asked_spent truthful s.left, nofun⟩
  · obtain ⟨asked, told⟩ := @blockInfo_asked blocks head answered { s with left := s.left - 1 } truthful n
    exact ⟨(asked_spent truthful (s.left - 1)).trans asked, told⟩

theorem findCommonAncestor_cons (entry : ℕ × ℕ) (rest : List (ℕ × ℕ)) (stored : ℕ → Option ℕ) :
    findCommonAncestor (entry :: rest) stored = if stored entry.1 = some entry.2 then some entry.1 else findCommonAncestor rest stored := by
  unfold findCommonAncestor
  rw [List.find?_cons]
  by_cases same : stored entry.1 = some entry.2
  · simp [same]
  · simp [same]

theorem walkBack_asked (rounds block : ℕ) (truthful : Truthful blocks head s.cache) :
    Asked blocks head s (walkBack blocks head answered rounds block s).2 ∧
      ∀ stored ancestor, findCommonAncestor (walkBack blocks head answered rounds block s).1 stored = some ancestor →
        1 ≤ ancestor ∧ ancestor ≤ block ∧ block < ancestor + rounds ∧ stored ancestor = some (blocks.blockAt head ancestor) ∧
          ∀ other ≤ block, ancestor < other → stored other ≠ some (blocks.blockAt head other) := by
  induction rounds generalizing block s with
  | zero => exact ⟨asked_spent truthful s.left, nofun⟩
  | succ rounds ih =>
    unfold walkBack
    split
    · exact ⟨asked_spent truthful s.left, nofun⟩
    · rename_i positive
      have request := @reqBlockInfo_asked blocks head answered s truthful block
      rcases asked : reqBlockInfo blocks head answered block s with ⟨told, s'⟩
      rw [asked] at request
      obtain ⟨asked, true_⟩ := request
      cases told with
      | none => exact ⟨asked, nofun⟩
      | some info =>
        obtain ⟨_, hash⟩ := true_ info rfl
        have here : ∀ (stored : ℕ → Option ℕ) ancestor, stored block = some info.hash → some block = some ancestor →
            1 ≤ ancestor ∧ ancestor ≤ block ∧ block < ancestor + (rounds + 1) ∧ stored ancestor = some (blocks.blockAt head ancestor) ∧
              ∀ other ≤ block, ancestor < other → stored other ≠ some (blocks.blockAt head other) := by
          intro stored ancestor matches_ same
          obtain rfl := Option.some.inj same
          rw [hash] at matches_
          exact ⟨by omega, le_rfl, by omega, matches_, fun other lower upper => by omega⟩
        dsimp only
        split
        · refine ⟨asked, fun stored ancestor found => ?_⟩
          rw [findCommonAncestor_cons] at found
          split at found
          · rename_i matches_
            exact here stored ancestor matches_ found
          · cases found
        · obtain ⟨later, rest⟩ := @ih s' (block - 1) asked.truthful
          refine ⟨asked.trans later, fun stored ancestor found => ?_⟩
          rw [findCommonAncestor_cons] at found
          split at found
          · rename_i matches_
            exact here stored ancestor matches_ found
          · rename_i differs
            obtain ⟨first, below, reached, same, none_⟩ := rest stored ancestor found
            refine ⟨first, by omega, by omega, same, fun other lower upper => ?_⟩
            by_cases top : other = block
            · rw [top, ← hash]
              exact differs
            · exact none_ other (by omega) upper

theorem mem_getLogs {poolManager : ℕ} {set : TrackedSet} {kind : StreamKind} {lo hi : ℕ} :
    log ∈ getLogs blocks head poolManager set kind lo hi ↔
      ∃ n, lo ≤ n ∧ n ≤ hi ∧ log ∈ blocks.logs (blocks.blockAt head n) ∧ matchesStream poolManager set log kind = true := by
  unfold getLogs
  rw [List.mem_flatMap]
  refine exists_congr fun n => ?_
  rw [List.mem_range'_1, List.mem_filter]
  constructor
  · rintro ⟨⟨lower, upper⟩, inside⟩
    exact ⟨lower, by omega, inside⟩
  · rintro ⟨lower, upper, inside⟩
    exact ⟨⟨lower, by omega⟩, inside⟩

theorem pageEnd_asked {poolManager : ℕ} {set : TrackedSet} {kind : StreamKind} {lo hi : ℕ} (truthful : Truthful blocks head s.cache)
    (inside : hi ≤ blocks.number head) :
    Asked blocks head s (pageEnd blocks head answered (getLogs blocks head poolManager set kind lo hi) hi s).2 ∧
      ∀ info ∈ (pageEnd blocks head answered (getLogs blocks head poolManager set kind lo hi) hi s).1, info.hash = blocks.blockAt head hi := by
  have ends : ∀ log, (getLogs blocks head poolManager set kind lo hi).find? (fun log => decide (log.blockNumber = hi)) = some log →
      log.blockHash = blocks.blockAt head hi := by
    intro log found
    obtain ⟨n, _, upper, member, _⟩ := mem_getLogs.mp (List.mem_of_find?_eq_some found)
    have at_ : log.blockNumber = hi := by simpa using List.find?_some found
    obtain ⟨hash, number⟩ := blocks.own _ log member
    rw [BlockTree.number_blockAt (upper.trans inside), at_] at number
    rw [hash, number]
  unfold pageEnd
  dsimp only
  cases stamped : ((getLogs blocks head poolManager set kind lo hi).find? fun log => decide (log.blockNumber = hi)).bind
      fun log => (log.blockTimestamp.filter (· ≠ 0)).map fun ts => BlockInfo.mk log.blockHash ts with
  | some info =>
    refine ⟨asked_spent truthful s.left, fun other same => ?_⟩
    obtain rfl := Option.some.inj same
    obtain ⟨log, found, given⟩ := Option.bind_eq_some_iff.mp stamped
    obtain ⟨ts, _, rfl⟩ := Option.map_eq_some_iff.mp given
    exact ends log found
  | none =>
    have request := @reqBlockInfo_asked blocks head answered s truthful hi
    rcases asked : reqBlockInfo blocks head answered hi s with ⟨told, s'⟩
    rw [asked] at request
    obtain ⟨asked, true_⟩ := request
    cases told with
    | none => exact ⟨asked, nofun⟩
    | some info =>
      refine ⟨asked, fun other same => ?_⟩
      obtain rfl := Option.some.inj same
      cases found : (getLogs blocks head poolManager set kind lo hi).find? fun log => decide (log.blockNumber = hi) with
      | none => exact (true_ info rfl).2
      | some log => exact ends log found

end

section
variable {tune : ScanTune} {limit : LimitOne} {set : TrackedSet} {blocks : Blocks} {head : ℕ} {input : SweepInput} {kind : StreamKind} {s : Scan}

theorem decodeLog_place {e : EventInsert} (decoded : decodeLog set log kind = some e) :
    e.txHash = log.txHash ∧ e.logIndex = log.logIndex ∧ e.blockNumber = log.blockNumber ∧ e.blockHash = log.blockHash := by
  cases kind with
  | v4Pools =>
    obtain ⟨key, -, rfl⟩ := Option.map_eq_some_iff.mp decoded
    exact ⟨rfl, rfl, rfl, rfl⟩
  | clPools =>
    simp only [decodeLog, Option.bind_eq_bind, Option.bind_eq_some_iff, Option.pure_def, Option.some.injEq] at decoded
    obtain ⟨key, -, eventKind, -, payload, -, rfl⟩ := decoded
    exact ⟨rfl, rfl, rfl, rfl⟩
  | tokens =>
    simp only [decodeLog, Option.bind_eq_bind, Option.bind_eq_some_iff, Option.pure_def, Option.some.injEq] at decoded
    obtain ⟨eventKind, -, payload, -, rfl⟩ := decoded
    exact ⟨rfl, rfl, rfl, rfl⟩

variable {row : ChainEvent}

theorem Placed.sameLog {cursor : Cursor} (placed : Placed tune set blocks s row kind cursor log) :
    SameLog row log ∧ row.blockNumber = blocks.number row.blockHash := by
  obtain ⟨tx, index, number, _⟩ := decodeLog_place placed.decoded
  exact ⟨⟨tx, index⟩, number.trans (blocks.own _ log placed.logged).2⟩

theorem Sound.congr {s' : Scan} (sound : Sound tune set blocks head s) (store : s'.store = s.store) (scanned : s'.scannedFrom = s.scannedFrom) :
    Sound tune set blocks head s' := by
  obtain ⟨store', cache', left', scannedFrom'⟩ := s'
  dsimp only at store scanned
  subst store scanned
  refine ⟨sound.keyed, sound.cursor, fun row member canonical => ?_, sound.stored⟩
  obtain ⟨kind, cursor, log, placed⟩ := sound.placed row member canonical
  exact ⟨kind, cursor, log, ⟨placed.listed, placed.read, placed.below, placed.scanned, placed.logged, placed.filtered, placed.decoded⟩⟩

theorem Sound.asked {s' : Scan} (sound : Sound tune set blocks head s) (asked : Asked blocks head s s') : Sound tune set blocks head s' :=
  sound.congr asked.store asked.scannedFrom

theorem Stored.mono {events after : ChainEvents} (kept : ∀ row ∈ events, row ∈ after) (stored : Stored blocks head events log) :
    Stored blocks head after log := by
  obtain ⟨row, member, facts⟩ := stored
  exact ⟨row, kept row member, facts⟩

theorem log_single {m n : ℕ} {log other : RawLog} (inside : m ≤ blocks.number head) (within : n ≤ blocks.number head)
    (member : log ∈ blocks.logs (blocks.blockAt head m)) (also : other ∈ blocks.logs (blocks.blockAt head n))
    (tx : log.txHash = other.txHash) (index : log.logIndex = other.logIndex) : log = other :=
  blocks.apart head _ _ (BlockTree.onChain_blockAt inside) (BlockTree.onChain_blockAt within) log member other also tx index

theorem logged_number {n : ℕ} (inside : n ≤ blocks.number head) (member : log ∈ blocks.logs (blocks.blockAt head n)) :
    log.blockHash = blocks.blockAt head n ∧ log.blockNumber = n := by
  obtain ⟨hash, number⟩ := blocks.own _ log member
  exact ⟨hash, number.trans (BlockTree.number_blockAt inside)⟩

/-- The stream is about to scan from a block of the current chain. -/
structure OnPage (tune : ScanTune) (set : TrackedSet) (blocks : Blocks) (head : ℕ) (kind : StreamKind) (block : ℕ) (s : Scan) : Prop where
  sound : Sound tune set blocks head s
  truthful : Truthful blocks head s.cache
  inside : block ≤ blocks.number head
  cursor : ∃ cursor, s.store.cursors kind = some cursor ∧ cursor.blockHash = blocks.blockAt head block
  ahead : Ahead tune set blocks head kind s.events block

theorem OnPage.asked {block : ℕ} {s' : Scan} (onPage : OnPage tune set blocks head kind block s) (asked : Asked blocks head s s') :
    OnPage tune set blocks head kind block s' := by
  refine ⟨onPage.sound.asked asked, asked.truthful, onPage.inside, ?_, ?_⟩
  · rw [asked.store]
    exact onPage.cursor
  · have same : s'.events = s.events := congrArg ScanStore.events asked.store
    rw [same]
    exact onPage.ahead

theorem OnPage.level {block : ℕ} (onPage : OnPage tune set blocks head kind block s) {cursor : Cursor}
    (read : s.store.cursors kind = some cursor) :
    streamOpen set kind = true ∧ cursor.blockHash = blocks.blockAt head block ∧ s.scannedFrom kind ≤ block := by
  obtain ⟨other, found, hash⟩ := onPage.cursor
  obtain rfl := Option.some.inj (read.symm.trans found)
  obtain ⟨listed, number, from_⟩ := onPage.sound.cursor kind cursor read
  rw [hash, BlockTree.number_blockAt onPage.inside] at number
  exact ⟨listed, hash, number ▸ from_⟩

def pageEvents (tune : ScanTune) (set : TrackedSet) (blocks : Blocks) (head : ℕ) (kind : StreamKind) (lo hi : ℕ) : List EventInsert :=
  (getLogs blocks head tune.poolManager set kind lo hi).filterMap fun log => decodeLog set log kind

theorem mem_pageEvents {lo hi : ℕ} {e : EventInsert} :
    e ∈ pageEvents tune set blocks head kind lo hi ↔ ∃ n log, lo ≤ n ∧ n ≤ hi ∧ log ∈ blocks.logs (blocks.blockAt head n) ∧
      matchesStream tune.poolManager set log kind = true ∧ decodeLog set log kind = some e := by
  unfold pageEvents
  rw [List.mem_filterMap]
  constructor
  · rintro ⟨log, inside, decoded⟩
    obtain ⟨n, lower, upper, member, filtered⟩ := mem_getLogs.mp inside
    exact ⟨n, log, lower, upper, member, filtered, decoded⟩
  · rintro ⟨n, log, lower, upper, member, filtered, decoded⟩
    exact ⟨log, mem_getLogs.mpr ⟨n, lower, upper, member, filtered⟩, decoded⟩

theorem pageEvents_same {lo hi n : ℕ} (inside : hi ≤ blocks.number head)
    (new : row.toEventInsert ∈ pageEvents tune set blocks head kind lo hi) (within : n ≤ blocks.number head)
    (logged : log ∈ blocks.logs (blocks.blockAt head n)) (same : SameLog row log) :
    row.blockHash = log.blockHash ∧ n ≤ hi := by
  obtain ⟨m, source, _, upper, member, _, decoded⟩ := mem_pageEvents.mp new
  obtain ⟨tx, index, _, hash⟩ := decodeLog_place decoded
  obtain rfl := log_single within (upper.trans inside) logged member (same.1.symm.trans tx) (same.2.symm.trans index)
  have level := (logged_number within logged).2.symm.trans (logged_number (upper.trans inside) member).2
  exact ⟨hash, level ▸ upper⟩

def NewCursor (kind : StreamKind) (cursor : Cursor) (s after : Scan) : Prop :=
  ∀ other, after.store.cursors other = if other = kind then some cursor else s.store.cursors other

theorem NewCursor.own {cursor : Cursor} {after : Scan} (new : NewCursor kind cursor s after) : after.store.cursors kind = some cursor :=
  (new kind).trans (if_pos rfl)

theorem NewCursor.cases {cursor : Cursor} {after : Scan} (new : NewCursor kind cursor s after) {other : StreamKind} {later : Cursor}
    (read : after.store.cursors other = some later) : other = kind ∧ later = cursor ∨ other ≠ kind ∧ s.store.cursors other = some later := by
  rw [new other] at read
  by_cases same : other = kind
  · rw [if_pos same] at read
    exact Or.inl ⟨same, (Option.some.inj read).symm⟩
  · rw [if_neg same] at read
    exact Or.inr ⟨same, read⟩

theorem NewCursor.other {cursor : Cursor} {after : Scan} (new : NewCursor kind cursor s after) {other : StreamKind} (differs : other ≠ kind) :
    after.store.cursors other = s.store.cursors other := (new other).trans (if_neg differs)

section
variable {block hi : ℕ} {info : BlockInfo}

theorem commitPage_sound (onPage : OnPage tune set blocks head kind block s) (forward : block < hi) (final : hi ≤ finalityHead tune blocks head)
    (hash : info.hash = blocks.blockAt head hi) : Sound tune set blocks head (commitPage tune set blocks head kind (block + 1) hi info s) := by
  have inside : hi ≤ blocks.number head := final.trans (Nat.sub_le _ _)
  have batched : Batched s.events (pageEvents tune set blocks head kind (block + 1) hi)
      (commitPage tune set blocks head kind (block + 1) hi info s).events [] := insertEvents_batched _
  obtain ⟨cursor, read, mine⟩ := onPage.cursor
  obtain ⟨listed, _, from_⟩ := onPage.level read
  have up : blocks.OnChain (blocks.blockAt head hi) (blocks.blockAt head block) := by
    refine (BlockTree.onChain_blockAt inside).below (BlockTree.onChain_blockAt onPage.inside) ?_
    rw [BlockTree.number_blockAt inside, BlockTree.number_blockAt onPage.inside]
    exact forward.le
  have new : NewCursor kind ⟨hi, info.hash, latestTs (s.store.cursors kind) (some info.ts), .active⟩ s
      (commitPage tune set blocks head kind (block + 1) hi info s) := fun _ => rfl
  refine ⟨batched.keyed onPage.sound.keyed, fun other after reads => ?_, fun row member canonical => ?_, fun other after reads => ?_⟩
  · rcases new.cases reads with ⟨rfl, rfl⟩ | ⟨_, before⟩
    · rw [hash, BlockTree.number_blockAt inside]
      exact ⟨listed, rfl, from_.trans forward.le⟩
    · exact onPage.sound.cursor other after before
  · rcases batched.fresh row member with old | ⟨paged, _⟩
    · obtain ⟨other, holder, log, placed⟩ := onPage.sound.placed row old canonical
      by_cases same : other = kind
      · subst same
        obtain rfl := Option.some.inj (read.symm.trans placed.read)
        refine ⟨other, _, log, ⟨listed, new.own, ?_, placed.scanned, placed.logged, placed.filtered, placed.decoded⟩⟩
        rw [hash]
        exact up.trans (mine ▸ placed.below)
      · exact ⟨other, holder, log, ⟨placed.listed, (new.other same).trans placed.read, placed.below, placed.scanned, placed.logged, placed.filtered, placed.decoded⟩⟩
    · obtain ⟨n, log, lower, upper, logged, filtered, decoded⟩ := mem_pageEvents.mp paged
      obtain ⟨at_, level⟩ := logged_number (upper.trans inside) logged
      obtain ⟨_, _, number, rowHash⟩ := decodeLog_place decoded
      rw [at_] at rowHash
      refine ⟨kind, _, log, ⟨listed, new.own, ?_, ?_, by rw [rowHash]; exact logged, filtered, decoded⟩⟩
      · rw [hash, rowHash]
        refine (BlockTree.onChain_blockAt inside).below (BlockTree.onChain_blockAt (upper.trans inside)) ?_
        rw [BlockTree.number_blockAt inside, BlockTree.number_blockAt (upper.trans inside)]
        exact upper
      · show s.scannedFrom kind < row.blockNumber
        rw [number, level]
        omega
  · rcases new.cases reads with ⟨rfl, rfl⟩ | ⟨_, before⟩
    · intro target below scanned log logged wanted
      rw [hash] at below
      by_cases early : blocks.number target ≤ block
      · -- what was scanned before the page
        have under : blocks.OnChain cursor.blockHash target := by
          rw [mine]
          exact up.below below (by rw [BlockTree.number_blockAt onPage.inside]; exact early)
        exact (onPage.sound.stored other cursor read target under scanned log logged wanted).mono batched.kept
      · have here : blocks.OnChain head target := (BlockTree.onChain_blockAt inside).trans below
        have upper : blocks.number target ≤ hi := by
          have bound := below.1
          rw [BlockTree.number_blockAt inside] at bound
          exact bound
        have paged : log ∈ blocks.logs (blocks.blockAt head (blocks.number target)) := by rw [here.2]; exact logged
        obtain ⟨e, decoded⟩ := Option.ne_none_iff_exists'.mp wanted.2
        have listed : e ∈ pageEvents tune set blocks head other (block + 1) hi :=
          mem_pageEvents.mpr ⟨_, log, by omega, upper, paged, wanted.1, decoded⟩
        obtain ⟨tx, index, _⟩ := decodeLog_place decoded
        rcases batched.present e listed with waiting | ⟨row, member, sameTx, sameIndex⟩
        · cases waiting
        · have same : SameLog row log := ⟨sameTx.trans tx, sameIndex.trans index⟩
          rcases batched.fresh row member with old | ⟨written, canonical⟩
          · obtain ⟨hash, canonical⟩ := onPage.ahead _ (upper.trans final) (by omega) log paged wanted row old same
            exact ⟨row, member, same, hash, fun _ => canonical⟩
          · exact ⟨row, member, same, (pageEvents_same inside written (upper.trans inside) paged same).1, fun _ => canonical⟩
    · intro target below scanned log logged wanted
      exact (onPage.sound.stored other after before target below scanned log logged wanted).mono batched.kept

theorem commitPage_onPage (onPage : OnPage tune set blocks head kind block s) (forward : block < hi) (final : hi ≤ finalityHead tune blocks head)
    (hash : info.hash = blocks.blockAt head hi) :
    OnPage tune set blocks head kind hi (commitPage tune set blocks head kind (block + 1) hi info s) := by
  have inside : hi ≤ blocks.number head := final.trans (Nat.sub_le _ _)
  refine ⟨commitPage_sound onPage forward final hash, onPage.truthful, inside, ⟨_, if_pos rfl, hash⟩, ?_⟩
  intro n bounded later log logged wanted row member same
  have batched : Batched s.events (pageEvents tune set blocks head kind (block + 1) hi)
      (commitPage tune set blocks head kind (block + 1) hi info s).events [] := insertEvents_batched _
  rcases batched.fresh row member with old | ⟨new, _⟩
  · exact onPage.ahead n bounded (forward.trans later) log logged wanted row old same
  · have early := (pageEvents_same inside new (bounded.trans (Nat.sub_le _ _)) logged same).2
    exact absurd later (not_lt.mpr early)

/-- What a scan leaves of a stream that was on the chain, or went back to it. -/
structure Done (tune : ScanTune) (set : TrackedSet) (blocks : Blocks) (head : ℕ) (kind : StreamKind) (s : Scan) : Prop where
  sound : Sound tune set blocks head s
  cursor : ∃ cursor, s.store.cursors kind = some cursor ∧ blocks.OnChain head cursor.blockHash

theorem OnPage.done (onPage : OnPage tune set blocks head kind block s) : Done tune set blocks head kind s := by
  obtain ⟨cursor, read, hash⟩ := onPage.cursor
  refine ⟨onPage.sound, cursor, read, ?_⟩
  rw [hash]
  exact BlockTree.onChain_blockAt onPage.inside

theorem setStatus_cursors {status : StreamStatus} {other : StreamKind} {cursor : Cursor}
    (read : (setStatus kind status s).store.cursors other = some cursor) :
    ∃ before, s.store.cursors other = some before ∧ cursor.blockHash = before.blockHash ∧ cursor.blockNumber = before.blockNumber := by
  by_cases same : other = kind
  · simp only [setStatus, setEmergingStreamStatus, setCursor, if_pos same] at read
    obtain ⟨before, found, rfl⟩ := Option.map_eq_some_iff.mp read
    exact ⟨before, same ▸ found, rfl, rfl⟩
  · simp only [setStatus, setEmergingStreamStatus, setCursor, if_neg same] at read
    exact ⟨cursor, read, rfl, rfl⟩

theorem setStatus_reads {status : StreamStatus} {other : StreamKind} {cursor : Cursor} (read : s.store.cursors other = some cursor) :
    ∃ after, (setStatus kind status s).store.cursors other = some after ∧ after.blockHash = cursor.blockHash := by
  by_cases same : other = kind
  · subst same
    refine ⟨{ cursor with status }, ?_, rfl⟩
    simp only [setStatus, setEmergingStreamStatus, setCursor, if_pos]
    rw [read]
    rfl
  · exact ⟨cursor, (if_neg same).trans read, rfl⟩

theorem setStatus_sound {status : StreamStatus} (sound : Sound tune set blocks head s) :
    Sound tune set blocks head (setStatus kind status s) := by
  refine ⟨sound.keyed, fun other cursor read => ?_, fun row member canonical => ?_, fun other cursor read => ?_⟩
  · obtain ⟨before, found, hash, number⟩ := setStatus_cursors read
    rw [hash, number]
    exact sound.cursor other before found
  · obtain ⟨other, cursor, log, placed⟩ := sound.placed row member canonical
    obtain ⟨after, read, hash⟩ := @setStatus_reads kind s status other cursor placed.read
    exact ⟨other, after, log, ⟨placed.listed, read, hash ▸ placed.below, placed.scanned, placed.logged, placed.filtered, placed.decoded⟩⟩
  · obtain ⟨before, found, hash, _⟩ := setStatus_cursors read
    rw [hash]
    exact sound.stored other before found

theorem setStatus_done {status : StreamStatus} (done : Done tune set blocks head kind s) :
    Done tune set blocks head kind (setStatus kind status s) := by
  obtain ⟨cursor, read, onChain⟩ := done.cursor
  obtain ⟨after, found, hash⟩ := @setStatus_reads kind s status kind cursor read
  exact ⟨setStatus_sound done.sound, after, found, hash ▸ onChain⟩

theorem nextWindow_pos (window : ℕ) (succeeded : Bool) (tune : ScanTune) : 0 < nextWindow window succeeded tune.scanMaxWindowBlocks := by
  have positive := tune.maxPositive
  unfold nextWindow
  split <;> omega

theorem scanPages_done (input : SweepInput) (rounds : ℕ) {window : ℕ} (wide : 0 < window) (onPage : OnPage tune set blocks head kind block s) :
    Done tune set blocks head kind (scanPages tune set blocks head input kind rounds (block + 1) window s) := by
  induction rounds generalizing block window s with
  | zero => exact onPage.done
  | succ rounds ih =>
    unfold scanPages
    split
    · exact onPage.done
    · rename_i goes
      dsimp only
      have spent : OnPage tune set blocks head kind block { s with left := s.left - 1 } := onPage.asked (asked_spent onPage.truthful _)
      have final : min (block + 1 + window - 1) (finalityHead tune blocks head) ≤ finalityHead tune blocks head := min_le_right _ _
      have forward : block < min (block + 1 + window - 1) (finalityHead tune blocks head) := by omega
      generalize min (block + 1 + window - 1) (finalityHead tune blocks head) = hi at final forward
      split
      · have request := @pageEnd_asked blocks head input.answered { s with left := s.left - 1 } tune.poolManager set kind (block + 1) hi
          spent.truthful (final.trans (Nat.sub_le _ _))
        rcases asked : pageEnd blocks head input.answered (getLogs blocks head tune.poolManager set kind (block + 1) hi) hi
          { s with left := s.left - 1 } with ⟨told, s'⟩
        rw [asked] at request
        obtain ⟨asked, hash⟩ := request
        cases told with
        | none => exact (spent.asked asked).done
        | some info => exact ih (nextWindow_pos _ _ _) (commitPage_onPage (spent.asked asked) forward final (hash info rfl))
      · split
        · exact setStatus_done spent.done
        · exact ih (nextWindow_pos _ _ _) spent

end

theorem seedStream_onPage (sound : Sound tune set blocks head s) (truthful : Truthful blocks head s.cache) (listed : streamOpen set kind = true)
    (fresh : s.store.cursors kind = none)
    (ahead : Ahead tune set blocks head kind s.events (seedBlock tune blocks head input)) :
    (seedStream tune blocks head input kind s).store.cursors kind = none ∧ Sound tune set blocks head (seedStream tune blocks head input kind s) ∨
      OnPage tune set blocks head kind (seedBlock tune blocks head input) (seedStream tune blocks head input kind s) := by
  unfold seedStream
  have request := @reqBlockInfo_asked blocks head input.answered s truthful (seedBlock tune blocks head input)
  rcases asked : reqBlockInfo blocks head input.answered (seedBlock tune blocks head input) s with ⟨told, s'⟩
  rw [asked] at request
  obtain ⟨asked, true_⟩ := request
  have before := sound.asked asked
  cases told with
  | none =>
    left
    dsimp only
    rw [asked.store]
    exact ⟨fresh, before⟩
  | some info =>
    right
    obtain ⟨inside, hash⟩ := true_ info rfl
    dsimp only
    have fresh' : s'.store.cursors kind = none := by rw [asked.store]; exact fresh
    generalize cursorIs : (⟨seedBlock tune blocks head input, info.hash, latestTs (s'.store.cursors kind) (some info.ts), .active⟩ : Cursor) = cursor
    have new : NewCursor kind cursor s' (seeded kind (seedBlock tune blocks head input) info s') := by
      intro other
      rw [← cursorIs]
      rfl
    have mine : cursor.blockHash = blocks.blockAt head (seedBlock tune blocks head input) := by rw [← cursorIs]; exact hash
    have level : cursor.blockNumber = seedBlock tune blocks head input := by rw [← cursorIs]
    have apart : ∀ {other found}, s'.store.cursors other = some found → other ≠ kind := by
      intro other found read same
      rw [same, fresh'] at read
      cases read
    refine ⟨⟨before.keyed, fun other later read => ?_, fun row member canonical => ?_, fun other later read => ?_⟩, asked.truthful, inside,
      ⟨cursor, new.own, mine⟩, ?_⟩
    · rcases new.cases read with ⟨rfl, rfl⟩ | ⟨differs, old⟩
      · rw [mine, level, BlockTree.number_blockAt inside]
        exact ⟨listed, rfl, (if_pos rfl).le⟩
      · have kept := before.cursor other later old
        exact ⟨kept.1, kept.2.1, (if_neg differs).le.trans kept.2.2⟩
    · obtain ⟨other, holder, log, placed⟩ := before.placed row member canonical
      have differs := apart placed.read
      exact ⟨other, holder, log, ⟨placed.listed, (new.other differs).trans placed.read, placed.below,
        (if_neg differs).le.trans_lt placed.scanned, placed.logged, placed.filtered, placed.decoded⟩⟩
    · intro target below scanned log logged wanted
      rcases new.cases read with ⟨rfl, rfl⟩ | ⟨differs, old⟩
      · -- nothing lies above the seed and below the cursor
        have bound := below.1
        rw [mine, BlockTree.number_blockAt inside] at bound
        have from_ : seedBlock tune blocks head input < blocks.number target := (if_pos rfl).ge.trans_lt scanned
        exact absurd bound (not_le.mpr from_)
      · exact before.stored other later old target below ((if_neg differs).ge.trans_lt scanned) log logged wanted
    · have same : s'.events = s.events := congrArg ScanStore.events asked.store
      show Ahead tune set blocks head kind s'.events _
      rw [same]
      exact ahead

variable {events : ChainEvents}

theorem mem_archiveAbove {ancestor : ℕ} (member : row ∈ archiveAbove events ancestor) :
    ∃ old ∈ events, row.toEventInsert = old.toEventInsert ∧ (row.canonical = true → old.canonical = true ∧ old.blockNumber ≤ ancestor) := by
  obtain ⟨old, inside, rfl⟩ := List.mem_map.mp member
  refine ⟨old, inside, by split <;> rfl, fun canonical => ?_⟩
  split at canonical
  · cases canonical
  · rename_i kept
    exact ⟨canonical, not_lt.mp fun above => kept ⟨canonical, above⟩⟩

theorem archiveAbove_keeps {ancestor : ℕ} {old : ChainEvent} (member : old ∈ events) :
    ∃ row ∈ archiveAbove events ancestor, row.toEventInsert = old.toEventInsert ∧
      (old.blockNumber ≤ ancestor → row.canonical = old.canonical) := by
  refine ⟨_, List.mem_map_of_mem member, by split <;> rfl, fun below => ?_⟩
  rw [if_neg fun above => absurd above.2 (not_lt.mpr below)]

theorem archiveAbove_keyed (keyed : Keyed events) (ancestor : ℕ) : Keyed (archiveAbove events ancestor) := by
  refine List.pairwise_map.mpr (keyed.imp fun {first second} differ => ?_)
  have same : ∀ row : ChainEvent, (if row.canonical = true ∧ ancestor < row.blockNumber then { row with canonical := false } else row).toEventInsert =
      row.toEventInsert := by
    intro row
    split <;> rfl
  rw [same first, same second]
  exact differ

theorem Sound.level (sound : Sound tune set blocks head s) (member : row ∈ s.events) (canonical : row.canonical = true) :
    row.blockNumber = blocks.number row.blockHash := by
  obtain ⟨_, _, _, placed⟩ := sound.placed row member canonical
  exact placed.sameLog.2

theorem rewind_onPage {cursor : Cursor} {ancestor hash : ℕ} (sound : Sound tune set blocks head s) (truthful : Truthful blocks head s.cache)
    (read : s.store.cursors kind = some cursor) (inside : ancestor ≤ blocks.number head) (hashIs : hash = blocks.blockAt head ancestor)
    (returns : Returns blocks head s cursor ancestor) (ahead : Ahead tune set blocks head kind s.events ancestor) :
    OnPage tune set blocks head kind ancestor (rewindEmergingStream kind ancestor hash s) := by
  have new : NewCursor kind ⟨ancestor, hash, none, .active⟩ s (rewindEmergingStream kind ancestor hash s) := by
    intro other
    show (if other = kind then (s.store.cursors kind).map _ else s.store.cursors other) = _
    rw [read]
    rfl
  have mine : ∀ target, blocks.OnChain hash target ↔ blocks.OnChain cursor.blockHash target ∧ blocks.number target ≤ ancestor := by
    intro target
    rw [hashIs]
    constructor
    · intro below
      have bound := below.1
      rw [BlockTree.number_blockAt inside] at bound
      exact ⟨returns.shared.trans below, bound⟩
    · rintro ⟨below, bound⟩
      exact returns.shared.below below (by rw [BlockTree.number_blockAt inside]; exact bound)
  obtain ⟨listed, _, _⟩ := sound.cursor kind cursor read
  refine ⟨⟨archiveAbove_keyed sound.keyed ancestor, fun other later found => ?_, fun row member canonical => ?_, fun other later found => ?_⟩,
    truthful, inside, ⟨_, new.own, hashIs⟩, ?_⟩
  · rcases new.cases found with ⟨rfl, rfl⟩ | ⟨differs, old⟩
    · rw [hashIs, BlockTree.number_blockAt inside]
      exact ⟨listed, rfl, (if_pos rfl).le.trans (min_le_right _ _)⟩
    · have kept := sound.cursor other later old
      exact ⟨kept.1, kept.2.1, (if_neg differs).le.trans kept.2.2⟩
  · obtain ⟨old, inside, same, kept⟩ := mem_archiveAbove member
    obtain ⟨before, low⟩ := kept canonical
    obtain ⟨other, holder, log, placed⟩ := sound.placed old inside before
    have level := placed.sameLog.2
    have below : blocks.OnChain holder.blockHash row.blockHash := by rw [same]; exact placed.below
    have logged : log ∈ blocks.logs row.blockHash := by rw [same]; exact placed.logged
    have scanned : s.scannedFrom other < row.blockNumber := by rw [same]; exact placed.scanned
    have decoded : decodeLog set log other = some row.toEventInsert := by rw [same]; exact placed.decoded
    by_cases own : other = kind
    · subst own
      obtain rfl := Option.some.inj (read.symm.trans placed.read)
      have under : blocks.OnChain hash row.blockHash := (mine row.blockHash).mpr ⟨below, by rw [same, ← level]; exact low⟩
      have from_ : (rewindEmergingStream other ancestor hash s).scannedFrom other < row.blockNumber :=
        ((if_pos rfl).le.trans (min_le_left _ _)).trans_lt scanned
      exact ⟨other, _, log, ⟨listed, new.own, under, from_, logged, placed.filtered, decoded⟩⟩
    · exact ⟨other, holder, log, ⟨placed.listed, (new.other own).trans placed.read, below, (if_neg own).le.trans_lt scanned, logged,
        placed.filtered, decoded⟩⟩
  · intro target below scanned log logged wanted
    have stored : Stored blocks head s.events log := by
      rcases new.cases found with ⟨rfl, rfl⟩ | ⟨differs, old⟩
      · obtain ⟨under, bound⟩ := (mine target).mp below
        have from_ : min (s.scannedFrom other) ancestor < blocks.number target := (if_pos rfl).ge.trans_lt scanned
        exact sound.stored other cursor read target under (by omega) log logged wanted
      · exact sound.stored other later old target below ((if_neg differs).ge.trans_lt scanned) log logged wanted
    obtain ⟨old, member, same, at_, stands⟩ := stored
    obtain ⟨row, inside, equal, kept⟩ := @archiveAbove_keeps s.events ancestor old member
    refine ⟨row, inside, by unfold SameLog; rw [equal]; exact same, by rw [equal]; exact at_, fun onChain => ?_⟩
    -- a row of the chain is not archived
    have low : old.blockNumber ≤ ancestor := not_lt.mp fun above => returns.orphans old member above (at_ ▸ onChain)
    rw [kept low]
    exact stands onChain
  · intro n bounded later log logged wanted row member same
    obtain ⟨old, inside, equal, _⟩ := mem_archiveAbove member
    have sameOld : SameLog old log := by unfold SameLog at same ⊢; rw [← equal]; exact same
    obtain ⟨at_, stands⟩ := ahead n bounded later log logged wanted old inside sameOld
    have within : n ≤ blocks.number head := bounded.trans (Nat.sub_le _ _)
    obtain ⟨logHash, logNumber⟩ := logged_number within logged
    have level := sound.level inside stands
    rw [at_, logHash, BlockTree.number_blockAt within] at level
    refine absurd ?_ (returns.orphans old inside (by rw [level]; exact later))
    rw [at_, logHash]
    exact BlockTree.onChain_blockAt within

theorem checkCursor_done {block : ℕ} {cursor : Cursor} (onPage : OnPage tune set blocks head kind block s)
    (read : s.store.cursors kind = some cursor) : Done tune set blocks head kind (checkCursor tune limit set blocks head input kind cursor s) := by
  obtain ⟨_, mine, _⟩ := onPage.level read
  have level : cursor.blockNumber = block := by
    have number := (onPage.sound.cursor kind cursor read).2.1
    rw [mine, BlockTree.number_blockAt onPage.inside] at number
    exact number
  unfold checkCursor
  have request := @reqBlockInfo_asked blocks head input.answered s onPage.truthful cursor.blockNumber
  rcases asked : reqBlockInfo blocks head input.answered cursor.blockNumber s with ⟨told, s'⟩
  rw [asked] at request
  obtain ⟨asked, true_⟩ := request
  cases told with
  | none => exact (onPage.asked asked).done
  | some current =>
    have same : current.hash = cursor.blockHash := by rw [(true_ current rfl).2, mine, level]
    dsimp only
    rw [if_pos same, level]
    exact scanPages_done input _ tune.startPositive (onPage.asked asked)

def Repaired (tune : ScanTune) (set : TrackedSet) (blocks : Blocks) (head : ℕ) (kind : StreamKind) (cursor : Cursor) (s s' : Scan) : Prop :=
  s'.events = s.events ∧
      (s'.store.cursors kind = some cursor ∨ s'.store.cursors kind = some { cursor with status := .reorgRepair }) ∨
    Done tune set blocks head kind s'

theorem repair_repaired (input : SweepInput) {cursor : Cursor} (sound : Sound tune set blocks head s) (truthful : Truthful blocks head s.cache)
    (read : s.store.cursors kind = some cursor)
    (returns : ∀ ancestor, Nearest limit blocks head s.events cursor.blockNumber ancestor →
      Returns blocks head s cursor ancestor ∧ Ahead tune set blocks head kind s.events ancestor) :
    Sound tune set blocks head (repair tune limit set blocks head input kind cursor s) ∧
      Repaired tune set blocks head kind cursor s (repair tune limit set blocks head input kind cursor s) := by
  unfold repair
  have walk := @walkBack_asked blocks head input.answered s (min 64 32) (cursor.blockNumber - 1) truthful
  rcases walked : walkBack blocks head input.answered (min 64 32) (cursor.blockNumber - 1) s with ⟨hashes, s'⟩
  rw [walked] at walk
  obtain ⟨asked, nearest⟩ := walk
  have events : s'.events = s.events := congrArg ScanStore.events asked.store
  have reads : s'.store.cursors kind = some cursor := by rw [asked.store]; exact read
  dsimp only
  cases found : findCommonAncestor hashes (storedHash limit s'.store.events) with
  | none =>
    refine ⟨setStatus_sound (sound.asked asked), Or.inl ⟨events, Or.inr ?_⟩⟩
    simp only [setStatus, setEmergingStreamStatus, setCursor, if_pos, reads, Option.map_some]
  | some ancestor =>
    dsimp only
    obtain ⟨positive, below, reached, stored, first⟩ := nearest _ ancestor found
    have nearest : Nearest limit blocks head s.events cursor.blockNumber ancestor := by
      rw [show s'.store.events = s.events from events] at stored first
      exact ⟨by omega, by omega, stored, fun other upper lower => first other (by omega) lower⟩
    obtain ⟨back, ahead⟩ := returns ancestor nearest
    have request := @reqBlockInfo_asked blocks head input.answered s' asked.truthful ancestor
    rcases confirmed : reqBlockInfo blocks head input.answered ancestor s' with ⟨told, s''⟩
    rw [confirmed] at request
    obtain ⟨again, true_⟩ := request
    have both := asked.trans again
    have events : s''.events = s.events := congrArg ScanStore.events both.store
    have reads : s''.store.cursors kind = some cursor := by rw [both.store]; exact read
    cases told with
    | none => exact ⟨sound.asked both, Or.inl ⟨events, Or.inl reads⟩⟩
    | some info =>
      obtain ⟨inside, hash⟩ := true_ info rfl
      have returns : Returns blocks head s'' cursor ancestor := ⟨back.shared, by rw [events]; exact back.orphans⟩
      have onPage := rewind_onPage (sound.asked both) both.truthful reads inside hash returns (by rw [events]; exact ahead)
      have done := scanPages_done input (rewindEmergingStream kind ancestor info.hash s'').left tune.startPositive onPage
      exact ⟨done.sound, Or.inr done⟩

def Detects (tune : ScanTune) (set : TrackedSet) (blocks : Blocks) (head : ℕ) (kind : StreamKind) (s s' : Scan) : Prop :=
  ∀ cursor ∈ s.store.cursors kind, ¬ blocks.OnChain head cursor.blockHash → Repaired tune set blocks head kind cursor s s'

theorem ahead_of {start : ℕ} (bounded : start ≤ finalityHead tune blocks head → Ahead tune set blocks head kind events start) :
    Ahead tune set blocks head kind events start := fun n within later => bounded (later.le.trans within) n within later

theorem scanStream_sound (sound : Sound tune set blocks head s) (listed : streamOpen set kind = true)
    (well : ScansWell tune limit set blocks head input s kind) :
    Sound tune set blocks head (scanStream tune limit set blocks head input kind s) ∧
      Detects tune set blocks head kind s (scanStream tune limit set blocks head input kind s) := by
  have ahead : ∀ start, StartsAt tune limit blocks head input s kind start → Ahead tune set blocks head kind s.events start :=
    fun start starts => ahead_of fun bounded => well.ahead start bounded starts
  unfold scanStream
  cases read : s.store.cursors kind with
  | none =>
    have vacuous : ∀ s', Detects tune set blocks head kind s s' := by
      intro s' cursor found
      rw [read] at found
      cases found
    have starts : StartsAt tune limit blocks head input s kind (seedBlock tune blocks head input) := by
      unfold StartsAt
      rw [read]
    rw [if_pos rfl]
    rcases seedStream_onPage sound well.cache listed read (ahead _ starts) with ⟨none_, still⟩ | onPage
    · dsimp only
      rw [none_]
      exact ⟨still, vacuous _⟩
    · obtain ⟨cursor, found, _⟩ := onPage.cursor
      dsimp only
      rw [found]
      exact ⟨(checkCursor_done onPage found).sound, vacuous _⟩
  | some cursor =>
    rw [if_neg (Option.some_ne_none cursor)]
    dsimp only
    rw [read]
    dsimp only
    have level := (sound.cursor kind cursor read).2.1
    have starts : ∀ start, StartsAt tune limit blocks head input s kind start ↔
        if blocks.OnChain head cursor.blockHash then start = cursor.blockNumber
        else Nearest limit blocks head s.events cursor.blockNumber start := by
      intro start
      unfold StartsAt
      rw [read]
    by_cases onChain : blocks.OnChain head cursor.blockHash
    · have onPage : OnPage tune set blocks head kind cursor.blockNumber s := by
        refine ⟨sound, well.cache, level ▸ onChain.1, ⟨cursor, read, ?_⟩, ahead _ ((starts _).mpr (by rw [if_pos onChain]))⟩
        rw [level]
        exact onChain.2.symm
      refine ⟨(checkCursor_done onPage read).sound, fun other found replaced => ?_⟩
      rw [Option.mem_def, read] at found
      obtain rfl := Option.some.inj found
      exact absurd onChain replaced
    · have checked : Sound tune set blocks head (checkCursor tune limit set blocks head input kind cursor s) ∧
          Repaired tune set blocks head kind cursor s (checkCursor tune limit set blocks head input kind cursor s) := by
        unfold checkCursor
        have request := @reqBlockInfo_asked blocks head input.answered s well.cache cursor.blockNumber
        rcases asked : reqBlockInfo blocks head input.answered cursor.blockNumber s with ⟨told, s'⟩
        rw [asked] at request
        obtain ⟨asked, true_⟩ := request
        have events : s'.events = s.events := congrArg ScanStore.events asked.store
        have reads : s'.store.cursors kind = some cursor := by rw [asked.store]; exact read
        cases told with
        | none => exact ⟨sound.asked asked, Or.inl ⟨events, Or.inl reads⟩⟩
        | some current =>
          obtain ⟨inside, hash⟩ := true_ current rfl
          -- the check tells the replaced block from the cursor's
          have differs : current.hash ≠ cursor.blockHash := by
            intro same
            rw [hash, level] at same
            exact onChain ⟨level ▸ inside, same⟩
          dsimp only
          rw [if_neg differs]
          have back : ∀ ancestor, Nearest limit blocks head s'.events cursor.blockNumber ancestor →
              Returns blocks head s' cursor ancestor ∧ Ahead tune set blocks head kind s'.events ancestor := by
            rw [events]
            intro ancestor nearest
            have returns := well.returns cursor read onChain ancestor nearest.below nearest
            exact ⟨⟨returns.shared, by rw [events]; exact returns.orphans⟩, ahead _ ((starts _).mpr (by rw [if_neg onChain]; exact nearest))⟩
          obtain ⟨after, repaired⟩ := repair_repaired input (sound.asked asked) asked.truthful reads back
          refine ⟨after, ?_⟩
          unfold Repaired at repaired ⊢
          rw [events] at repaired
          exact repaired
      refine ⟨checked.1, fun other found _ => ?_⟩
      rw [Option.mem_def, read] at found
      obtain rfl := Option.some.inj found
      exact checked.2

end

section
variable (tune : ScanTune) (limit : LimitOne) (set : TrackedSet) (blocks : Blocks)

def Meets (world : World) : Event → Prop
  | .replaced head => ∀ row ∈ world.scan.events, row.canonical = false → ¬ blocks.OnChain head row.blockHash
  | .restarted => True
  | .sweep input =>
    Along (fun s kind => scanStream tune limit set blocks world.head input kind s) (ScansWell tune limit set blocks world.head input)
      { world.scan with left := tune.scanRequestsPerSweep } (streams tune set)

def Reached (world : World) (block : ℕ) : Prop :=
  ∀ kind, streamOpen set kind = true → ∃ cursor, world.scan.store.cursors kind = some cursor ∧ cursor.status = .active ∧
    blocks.OnChain world.head cursor.blockHash ∧ block ≤ cursor.blockNumber

/-- The canonical rows up to a block are the logs of the current chain that the streams have scanned, each once. -/
structure Exact (world : World) (block : ℕ) : Prop where
  logged : ∀ row ∈ world.scan.events, row.canonical = true → row.blockNumber ≤ block → ∃ kind log, streamOpen set kind = true ∧
    world.scan.scannedFrom kind < row.blockNumber ∧ blocks.OnChain world.head row.blockHash ∧ log ∈ blocks.logs row.blockHash ∧
      matchesStream tune.poolManager set log kind = true ∧ decodeLog set log kind = some row.toEventInsert
  stored : ∀ kind, streamOpen set kind = true → ∀ n ≤ block, world.scan.scannedFrom kind < n →
    ∀ log ∈ blocks.logs (blocks.blockAt world.head n), Wanted tune set kind log →
      ∃ row ∈ world.scan.events, SameLog row log ∧ row.blockHash = log.blockHash ∧ row.canonical = true
  once : Keyed world.scan.events

end

section
variable {tune : ScanTune} {limit : LimitOne} {set : TrackedSet} {blocks : Blocks} {head : ℕ} {input : SweepInput} {s : Scan} {world : World}

theorem sweep_sound {kinds : List StreamKind} (listed : ∀ kind ∈ kinds, streamOpen set kind = true) (sound : Sound tune set blocks head s)
    (along : Along (fun s kind => scanStream tune limit set blocks head input kind s) (ScansWell tune limit set blocks head input) s kinds) :
    Sound tune set blocks head (run (fun s kind => scanStream tune limit set blocks head input kind s) s kinds) ∧
      Along (fun s kind => scanStream tune limit set blocks head input kind s)
        (fun s kind => Detects tune set blocks head kind s (scanStream tune limit set blocks head input kind s)) s kinds := by
  induction kinds generalizing s with
  | nil => exact ⟨sound, trivial⟩
  | cons kind rest ih =>
    obtain ⟨well, later⟩ := along
    obtain ⟨after, detects⟩ := scanStream_sound sound (listed kind List.mem_cons_self) well
    obtain ⟨final, others⟩ := ih (fun other member => listed other (List.mem_cons_of_mem _ member)) after later
    exact ⟨final, detects, others⟩

theorem streams_open {kind : StreamKind} (member : kind ∈ streams tune set) : streamOpen set kind = true :=
  (List.mem_filter.mp (List.mem_of_mem_take member)).2

theorem Sound.replaced (sound : Sound tune set blocks head s) {next : ℕ}
    (apart : ∀ row ∈ s.events, row.canonical = false → ¬ blocks.OnChain next row.blockHash) : Sound tune set blocks next s := by
  refine ⟨sound.keyed, sound.cursor, sound.placed, fun kind cursor read target below scanned log logged wanted => ?_⟩
  obtain ⟨row, member, same, at_, _⟩ := sound.stored kind cursor read target below scanned log logged wanted
  refine ⟨row, member, same, at_, fun onChain => ?_⟩
  by_contra archived
  exact apart row member (Bool.eq_false_iff.mpr archived) (at_ ▸ onChain)

theorem step_sound (event : Event) (sound : Sound tune set blocks world.head world.scan) (meets : Meets tune limit set blocks world event) :
    Sound tune set blocks (step tune limit set blocks world event).head (step tune limit set blocks world event).scan := by
  cases event with
  | replaced head => exact sound.replaced meets
  | restarted => exact sound.congr rfl rfl
  | sweep input =>
    have started : Sound tune set blocks world.head { world.scan with left := tune.scanRequestsPerSweep } := sound.congr rfl rfl
    exact (sweep_sound (fun _ => streams_open) started meets).1

theorem fresh_sound (head : ℕ) : Sound tune set blocks head (World.fresh head).scan := by
  refine ⟨List.Pairwise.nil, fun kind cursor read => ?_, fun row member => absurd member List.not_mem_nil, fun kind cursor read => ?_⟩
  · exact absurd read.symm (Option.some_ne_none cursor)
  · exact absurd read.symm (Option.some_ne_none cursor)

theorem exact_of_sound {block : ℕ} (sound : Sound tune set blocks world.head world.scan) (reached : Reached set blocks world block) :
    Exact tune set blocks world block := by
  refine ⟨fun row member canonical _ => ?_, fun kind listed n bounded scanned log logged wanted => ?_, sound.keyed⟩
  · obtain ⟨kind, cursor, log, placed⟩ := sound.placed row member canonical
    obtain ⟨other, found, _, onChain, _⟩ := reached kind placed.listed
    obtain rfl := Option.some.inj (placed.read.symm.trans found)
    exact ⟨kind, log, placed.listed, placed.scanned, onChain.trans placed.below, placed.logged, placed.filtered, placed.decoded⟩
  · obtain ⟨cursor, read, _, onChain, far⟩ := reached kind listed
    have level := (sound.cursor kind cursor read).2.1
    have inside : n ≤ blocks.number world.head := bounded.trans (far.trans (level ▸ onChain.1))
    have number : blocks.number (blocks.blockAt world.head n) = n := BlockTree.number_blockAt inside
    have below : blocks.OnChain cursor.blockHash (blocks.blockAt world.head n) :=
      onChain.below (BlockTree.onChain_blockAt inside) (by rw [number, ← level]; exact bounded.trans far)
    obtain ⟨row, member, same, at_, stands⟩ := sound.stored kind cursor read _ below (by rw [number]; exact scanned) log logged wanted
    refine ⟨row, member, same, at_, stands ?_⟩
    rw [(blocks.own _ log logged).1]
    exact BlockTree.onChain_blockAt inside

end

/-- Over every run that meets the condition: the canonical events are the logs of the current chain, and in every sweep the scan of a
stream notices that the block of its cursor was replaced. -/
theorem scan_exact (tune : ScanTune) (limit : LimitOne) (set : TrackedSet) (blocks : Blocks) (head : ℕ) (events : List Event)
    (along : Along (step tune limit set blocks) (Meets tune limit set blocks) (World.fresh head) events) :
    (∀ block, Reached set blocks (run (step tune limit set blocks) (World.fresh head) events) block →
      Exact tune set blocks (run (step tune limit set blocks) (World.fresh head) events) block) ∧
    ∀ earlier input later, events = earlier ++ .sweep input :: later →
      Along (fun s kind => scanStream tune limit set blocks (run (step tune limit set blocks) (World.fresh head) earlier).head input kind s)
        (fun s kind => Detects tune set blocks (run (step tune limit set blocks) (World.fresh head) earlier).head kind s
          (scanStream tune limit set blocks (run (step tune limit set blocks) (World.fresh head) earlier).head input kind s))
        { (run (step tune limit set blocks) (World.fresh head) earlier).scan with left := tune.scanRequestsPerSweep } (streams tune set) := by
  have stepKeeps : ∀ (world : World) event, Sound tune set blocks world.head world.scan → Meets tune limit set blocks world event →
      Sound tune set blocks (step tune limit set blocks world event).head (step tune limit set blocks world event).scan :=
    fun _ event sound meets => step_sound event sound meets
  have keeps : ∀ {events}, Along (step tune limit set blocks) (Meets tune limit set blocks) (World.fresh head) events →
      Sound tune set blocks (run (step tune limit set blocks) (World.fresh head) events).head
        (run (step tune limit set blocks) (World.fresh head) events).scan :=
    fun along => run_keeps stepKeeps (fresh_sound head) along
  refine ⟨fun block reached => exact_of_sound (keeps along) reached, fun earlier input later split => ?_⟩
  rw [split] at along
  obtain ⟨before, meets, _⟩ := along_append.mp along
  have started : Sound tune set blocks (run (step tune limit set blocks) (World.fresh head) earlier).head
      { (run (step tune limit set blocks) (World.fresh head) earlier).scan with left := tune.scanRequestsPerSweep } :=
    (keeps before).congr rfl rfl
  exact (sweep_sound (fun _ => streams_open) started meets).2

section
variable {tune : ScanTune} {limit : LimitOne} {set : TrackedSet} {blocks : Blocks} {head : ℕ} {input : SweepInput} {kind : StreamKind} {s : Scan}

instance {row : ChainEvent} {log : RawLog} : Decidable (SameLog row log) := inferInstanceAs (Decidable (_ ∧ _))

instance {log : RawLog} : Decidable (Wanted tune set kind log) := inferInstanceAs (Decidable (_ ∧ _))

instance {events : ChainEvents} {log : RawLog} : Decidable (Unclaimed events log) :=
  inferInstanceAs (Decidable (∀ row ∈ events, SameLog row log → row.blockHash = log.blockHash ∧ row.canonical = true))

instance {cache : List (ℕ × BlockInfo)} : Decidable (Truthful blocks head cache) := List.decidableBAll _ _

instance {events : ChainEvents} {block ancestor : ℕ} : Decidable (Nearest limit blocks head events block ancestor) :=
  decidable_of_iff (ancestor < block ∧ block ≤ ancestor + min 64 32 ∧ storedHash limit events ancestor = some (blocks.blockAt head ancestor) ∧
    ∀ other < block, ancestor < other → storedHash limit events other ≠ some (blocks.blockAt head other))
    ⟨fun ⟨below, reached, stored, first⟩ => ⟨below, reached, stored, first⟩, fun near => ⟨near.below, near.reached, near.stored, near.first⟩⟩

instance {cursor : Cursor} {ancestor : ℕ} : Decidable (Returns blocks head s cursor ancestor) :=
  decidable_of_iff (blocks.OnChain cursor.blockHash (blocks.blockAt head ancestor) ∧
    ∀ row ∈ s.events, ancestor < row.blockNumber → ¬ blocks.OnChain head row.blockHash)
    ⟨fun ⟨shared, orphans⟩ => ⟨shared, orphans⟩, fun returns => ⟨returns.shared, returns.orphans⟩⟩

instance {start : ℕ} : Decidable (StartsAt tune limit blocks head input s kind start) :=
  match read : s.store.cursors kind with
  | none => decidable_of_iff (start = seedBlock tune blocks head input) (by unfold StartsAt; rw [read])
  | some cursor =>
    decidable_of_iff (if blocks.OnChain head cursor.blockHash then start = cursor.blockNumber
      else Nearest limit blocks head s.events cursor.blockNumber start) (by unfold StartsAt; rw [read])

instance {events : ChainEvents} {start : ℕ} : Decidable (Ahead tune set blocks head kind events start) :=
  inferInstanceAs (Decidable (∀ n ≤ finalityHead tune blocks head, start < n → ∀ log ∈ blocks.logs (blocks.blockAt head n),
    Wanted tune set kind log → Unclaimed events log))

instance : Decidable (ScansWell tune limit set blocks head input s kind) :=
  decidable_of_iff (Truthful blocks head s.cache ∧ (∀ cursor ∈ s.store.cursors kind, ¬ blocks.OnChain head cursor.blockHash →
      ∀ ancestor < cursor.blockNumber, Nearest limit blocks head s.events cursor.blockNumber ancestor → Returns blocks head s cursor ancestor) ∧
    ∀ start ≤ finalityHead tune blocks head, StartsAt tune limit blocks head input s kind start → Ahead tune set blocks head kind s.events start)
    ⟨fun ⟨cache, returns, ahead⟩ => ⟨cache, returns, ahead⟩, fun well => ⟨well.cache, well.returns, well.ahead⟩⟩

instance {world : World} : ∀ {event : Event}, Decidable (Meets tune limit set blocks world event)
  | .replaced head =>
    inferInstanceAs (Decidable (∀ row ∈ world.scan.events, row.canonical = false → ¬ blocks.OnChain head row.blockHash))
  | .restarted => .isTrue trivial
  | .sweep input =>
    inferInstanceAs (Decidable (Along (fun s kind => scanStream tune limit set blocks world.head input kind s)
      (ScansWell tune limit set blocks world.head input) { world.scan with left := tune.scanRequestsPerSweep } (streams tune set)))

end

def swapLog (hash number tx : ℕ) : RawLog :=
  ⟨9, .swap, none, some ⟨none, none, none, none, none, none⟩, number, hash, some (100 + number), tx, 0, 0⟩

def forkedLogs (tx hash : ℕ) : List RawLog :=
  if hash = 1 then [swapLog 1 1 1] else if hash = 3 then [swapLog 3 3 3] else if hash = 103 then [swapLog 103 3 (tx + 2)] else []

theorem mem_forkedLogs {tx hash : ℕ} (member : log ∈ forkedLogs tx hash) :
    hash = 1 ∧ log = swapLog 1 1 1 ∨ hash = 3 ∧ log = swapLog 3 3 3 ∨ hash = 103 ∧ log = swapLog 103 3 (tx + 2) := by
  unfold forkedLogs at member
  split at member
  · exact Or.inl ⟨‹_›, List.mem_singleton.mp member⟩
  · split at member
    · exact Or.inr (Or.inl ⟨‹_›, List.mem_singleton.mp member⟩)
    · split at member
      · exact Or.inr (Or.inr ⟨‹_›, List.mem_singleton.mp member⟩)
      · cases member

def forkedTree : BlockTree where
  number hash := if hash < 100 then hash else hash - 100
  parent hash := if hash = 103 then 2 else hash - 1
  below hash := by split_ifs <;> omega

def forked (tx : ℕ) : Blocks where
  toBlockTree := forkedTree
  ts hash := 100 + hash
  logs := forkedLogs tx
  own hash log member := by
    rcases mem_forkedLogs member with ⟨rfl, rfl⟩ | ⟨rfl, rfl⟩ | ⟨rfl, rfl⟩
    · exact ⟨rfl, rfl⟩
    · exact ⟨rfl, rfl⟩
    · exact ⟨rfl, rfl⟩
  apart head first second onFirst onSecond log member other also tx index := by
    -- the two blocks of number 3 are on no common chain
    have apart : ¬ (forkedTree.OnChain head 3 ∧ forkedTree.OnChain head 103) := fun both => absurd (both.1.eq both.2 rfl) (by decide)
    rcases mem_forkedLogs member with ⟨rfl, rfl⟩ | ⟨rfl, rfl⟩ | ⟨rfl, rfl⟩
    · rcases mem_forkedLogs also with ⟨rfl, rfl⟩ | ⟨rfl, rfl⟩ | ⟨rfl, rfl⟩
      · rfl
      · simp [swapLog] at tx
      · simp [swapLog] at tx
    · rcases mem_forkedLogs also with ⟨rfl, rfl⟩ | ⟨rfl, rfl⟩ | ⟨rfl, rfl⟩
      · simp [swapLog] at tx
      · rfl
      · exact absurd (And.intro onFirst onSecond) apart
    · rcases mem_forkedLogs also with ⟨rfl, rfl⟩ | ⟨rfl, rfl⟩ | ⟨rfl, rfl⟩
      · simp [swapLog] at tx
      · exact absurd (And.intro onSecond onFirst) apart
      · rfl

def smallTune : ScanTune := ⟨7, 0, 20, 3, 5, 10, by decide, by decide⟩

def onePool : TrackedSet := ⟨[(9, 27)], [], []⟩

def forkEvents : List Event := [.sweep ⟨10, fun _ => true⟩, .replaced 103, .sweep ⟨10, fun _ => true⟩]

def afterFork (tx : ℕ) : World := run (step smallTune .first onePool (forked tx)) (World.fresh 3) forkEvents

def listing (world : World) : List (ℕ × ℕ × Bool) := world.scan.events.map fun row => (row.txHash, row.blockHash, row.canonical)

theorem reached_fork (tx : ℕ) (read : (afterFork tx).scan.store.cursors .clPools = some ⟨3, 103, some 103, .active⟩)
    (onChain : (forked tx).OnChain (afterFork tx).head 103) : Reached onePool (forked tx) (afterFork tx) 3 := by
  intro kind listed
  cases kind with
  | clPools => exact ⟨_, read, rfl, onChain, le_rfl⟩
  | v4Pools => cases listed
  | tokens => cases listed

/-- A swap of another transaction in the new block. -/
theorem scan_exact_fork : listing (afterFork 2) = [(1, 1, true), (3, 3, false), (4, 103, true)] ∧
    Exact smallTune onePool (forked 2) (afterFork 2) 3 := by
  refine ⟨by decide, ?_⟩
  have along : Along (step smallTune .first onePool (forked 2)) (Meets smallTune .first onePool (forked 2)) (World.fresh 3) forkEvents := by
    decide
  exact (scan_exact smallTune .first onePool (forked 2) 3 forkEvents along).1 3 (reached_fork 2 (by decide) (by decide))

/-- The new block has the swap again. -/
theorem returned_swap_archived : listing (afterFork 1) = [(1, 1, true), (3, 3, false)] ∧
    Reached onePool (forked 1) (afterFork 1) 3 ∧ ¬ Exact smallTune onePool (forked 1) (afterFork 1) 3 := by
  refine ⟨by decide, reached_fork 1 (by decide) (by decide), fun exact_ => ?_⟩
  have wanted : Wanted smallTune onePool .clPools (swapLog 103 3 3) := by decide
  obtain ⟨row, member, _, hash, _⟩ := exact_.stored .clPools rfl 3 le_rfl (by decide) (swapLog 103 3 3) (by decide) wanted
  have none_ : ∀ row ∈ (afterFork 1).scan.events, row.blockHash ≠ 103 := by decide
  exact none_ row member hash

end LpTerminal.Emerging.Reorg
