import LpTerminal.Emerging.MinuteBuckets

/-!
What the scanner has stored of the swaps of its pools, and that no order of batches, admissions and dating
loses any of it.
-/

namespace LpTerminal.Emerging.Minutes

variable {tune : AggregateTune} {chain : Chain} {events : ChainEvents} {scan : ScanStore} {set : TrackedSet}

def Keyed (events : ChainEvents) : Prop :=
  events.Pairwise fun first second => ¬ (first.txHash = second.txHash ∧ first.logIndex = second.logIndex)

theorem insertEvent_cases (e : EventInsert) :
    (∃ row ∈ events, row.txHash = e.txHash ∧ row.logIndex = e.logIndex) ∧ insertEvent events e = events ∨
      (∀ row ∈ events, ¬ (row.txHash = e.txHash ∧ row.logIndex = e.logIndex)) ∧
        insertEvent events e = events ++ [{ e with rid := events.length + 1, canonical := true }] := by
  unfold insertEvent
  split
  · rename_i present
    obtain ⟨row, member, same⟩ := List.any_eq_true.mp present
    exact Or.inl ⟨⟨row, member, by simpa using same⟩, rfl⟩
  · rename_i absent
    refine Or.inr ⟨fun row member same => absent ?_, rfl⟩
    exact List.any_eq_true.mpr ⟨row, member, by simpa using same⟩

/-- What a batch leaves: the rows before it, and one row for each of its logs that had none. -/
structure Batched (events : ChainEvents) (batch : List EventInsert) (after : ChainEvents) (rest : List EventInsert) : Prop where
  kept : ∀ row ∈ events, row ∈ after
  fresh : ∀ row ∈ after, row ∈ events ∨ row.toEventInsert ∈ batch ∧ row.canonical = true
  present : ∀ e ∈ batch, e ∈ rest ∨ ∃ row ∈ after, row.txHash = e.txHash ∧ row.logIndex = e.logIndex
  keyed : Keyed events → Keyed after

theorem insertEvents_batched (batch : List EventInsert) : Batched events batch (batch.foldl insertEvent events) [] := by
  have step : ∀ (rest : List EventInsert) (after : ChainEvents), (∀ e ∈ rest, e ∈ batch) → Batched events batch after rest →
      Batched events batch (rest.foldl insertEvent after) [] := by
    intro rest
    induction rest with
    | nil => exact fun _ _ before => before
    | cons e rest ih =>
      intro after listed before
      refine ih _ (fun other inside => listed other (List.mem_cons_of_mem _ inside)) ?_
      rcases @insertEvent_cases after e with ⟨present, same⟩ | ⟨absent, appended⟩
      · rw [same]
        refine ⟨before.kept, before.fresh, fun other inside => ?_, before.keyed⟩
        rcases before.present other inside with waiting | done
        · rcases List.mem_cons.mp waiting with rfl | later
          · exact Or.inr present
          · exact Or.inl later
        · exact Or.inr done
      · rw [appended]
        refine ⟨fun row member => List.mem_append_left _ (before.kept row member), fun row member => ?_, fun other inside => ?_, fun keyed => ?_⟩
        · rcases List.mem_append.mp member with old | new
          · exact before.fresh row old
          · obtain rfl := List.mem_singleton.mp new
            exact Or.inr ⟨listed e List.mem_cons_self, rfl⟩
        · rcases before.present other inside with waiting | ⟨row, member, same⟩
          · rcases List.mem_cons.mp waiting with rfl | later
            · exact Or.inr ⟨_, List.mem_append_right _ (List.mem_singleton.mpr rfl), rfl, rfl⟩
            · exact Or.inl later
          · exact Or.inr ⟨row, List.mem_append_left _ member, same⟩
        · refine List.pairwise_append.mpr ⟨before.keyed keyed, List.pairwise_singleton _ _, fun first member second last => ?_⟩
          obtain rfl := List.mem_singleton.mp last
          exact absent first member
  exact step batch events (fun _ => id) ⟨fun _ => id, fun _ => Or.inl, fun _ => Or.inl, id⟩

def SameLog (row : ChainEvent) (log : RawLog) : Prop := row.txHash = log.txHash ∧ row.logIndex = log.logIndex

def StoredSwap (events : ChainEvents) (poolKey : ℕ) (log : RawLog) : Prop :=
  ∃ row ∈ events, SameLog row log ∧ row.kind = .swap ∧ row.poolKey = some poolKey ∧ row.canonical = true

/-- What a row says of its log. A pool of the manager's own address has raw rows for its swaps. -/
structure RowOf (tune : AggregateTune) (log : RawLog) (row : ChainEvent) : Prop where
  same : SameLog row log
  block : row.blockNumber = log.blockNumber
  canonical : row.canonical = true
  swap : row.kind = .swap → log.topic = .swap ∧ log.args = some row.payload ∧
    ∃ venue, row.poolKey = some (formatEmergingPoolKey venue log.contract)
  other : row.kind ≠ .swap → log.topic = .swap → log.contract = tune.poolManager

structure Recorded (tune : AggregateTune) (chain : Chain) (row : ChainEvent) : Prop where
  logged : ∃ log ∈ chain.logs, RowOf tune log row
  dated : ∀ ts ∈ row.blockTs, ts = chain.ts row.blockNumber

/-- The pools of a filter have addresses of their own, which are not the manager's. -/
structure SetApart (tune : AggregateTune) (set : TrackedSet) : Prop where
  keys : ∀ entry ∈ set.cl, ∃ venue, entry.2 = formatEmergingPoolKey venue entry.1
  single : (set.cl.map Prod.fst).Nodup
  manager : ∀ entry ∈ set.cl, entry.1 ≠ tune.poolManager

def scannedThrough (scan : ScanStore) : Option ℕ := (scan.cursors .clPools).map Cursor.blockNumber

def Untraded (chain : Chain) (pool seed block : ℕ) : Prop :=
  ∀ log ∈ chain.logs, log.contract = pool → log.topic = .swap → log.blockNumber ≤ block →
    (chain.ts log.blockNumber : ℤ) < minuteOf seed

def UntradedBehind (chain : Chain) (scan : ScanStore) (pool : ℕ) : Prop :=
  ∀ block ∈ scannedThrough scan, ∀ seed ∈ scan.seeds .clPools, Untraded chain pool seed block

/-- The swaps of the pools of the filter, from the minute of the seed to the cursor, are stored. -/
structure Scanned (tune : AggregateTune) (chain : Chain) (scan : ScanStore) (set : TrackedSet) : Prop where
  keyed : Keyed scan.events
  recorded : ∀ row ∈ scan.events, Recorded tune chain row
  behind : ∀ row ∈ scan.events, row.kind = .swap → ∃ block ∈ scannedThrough scan, row.blockNumber ≤ block
  seeded : ∀ block ∈ scannedThrough scan, ∃ seed, scan.seeds .clPools = some seed
  apart : SetApart tune set
  covered : ∀ block ∈ scannedThrough scan, ∀ seed ∈ scan.seeds .clPools, ∀ entry ∈ set.cl, ∀ log ∈ chain.logs,
    log.contract = entry.1 → log.topic = .swap → log.blockNumber ≤ block →
    minuteOf seed ≤ chain.ts log.blockNumber → StoredSwap scan.events entry.2 log

variable {log : RawLog}

theorem StoredSwap.mono {after : ChainEvents} {poolKey : ℕ} (kept : ∀ row ∈ events, row ∈ after)
    (stored : StoredSwap events poolKey log) : StoredSwap after poolKey log := by
  obtain ⟨row, member, facts⟩ := stored
  exact ⟨row, kept row member, facts⟩

theorem nodup_places {α : Type*} {tx index : α → ℕ} {items : List α}
    (distinct : items.Pairwise fun first second => ¬ (tx first = tx second ∧ index first = index second)) :
    (items.map fun item => (tx item, index item)).Nodup :=
  List.pairwise_map.mpr (distinct.imp fun differ same => differ (Prod.mk.inj same))

theorem log_unique {first second : RawLog} (left : first ∈ chain.logs) (right : second ∈ chain.logs)
    (tx : first.txHash = second.txHash) (index : first.logIndex = second.logIndex) : first = second := by
  exact List.inj_on_of_nodup_map (nodup_places chain.distinct) left right (Prod.ext tx index)

variable {row : ChainEvent}

theorem Recorded.rowOf (recorded : Recorded tune chain row) (member : log ∈ chain.logs)
    (same : SameLog row log) : RowOf tune log row := by
  obtain ⟨other, inside, facts⟩ := recorded.logged
  have one := log_unique inside member (facts.same.1.symm.trans same.1) (facts.same.2.symm.trans same.2)
  exact one ▸ facts

theorem keyOf_mem {entries : List (ℕ × ℕ)} {id key : ℕ} (found : keyOf entries id = some key) : (id, key) ∈ entries := by
  unfold keyOf at found
  obtain ⟨entry, read, same⟩ := Option.map_eq_some_iff.mp found
  have member := List.mem_reverse.mp (List.mem_of_find?_eq_some read)
  have named : entry.1 = id := by simpa using List.find?_some read
  rw [← named, ← same]
  exact member

theorem keyOf_single {entries : List (ℕ × ℕ)} {entry : ℕ × ℕ} (single : (entries.map Prod.fst).Nodup) (member : entry ∈ entries) :
    keyOf entries entry.1 = some entry.2 := by
  cases found : keyOf entries entry.1 with
  | none =>
    unfold keyOf at found
    have absent := List.find?_eq_none.mp (Option.map_eq_none_iff.mp found) entry (List.mem_reverse.mpr member)
    simp at absent
  | some key =>
    have one := List.inj_on_of_nodup_map single (keyOf_mem found) member rfl
    rw [← one]

theorem eventBlockTs_true (member : log ∈ chain.logs) : ∀ ts ∈ eventBlockTs log.blockTimestamp, ts = chain.ts log.blockNumber := by
  intro ts dated
  have given := (Option.filter_eq_some_iff.mp dated).1
  rcases chain.stamped log member with missing | stamped
  · rw [missing] at given
    cases given
  · rw [stamped] at given
    exact (Option.some.inj given).symm

variable {kind : StreamKind}

theorem decodeLog_spec {e : EventInsert} (apart : SetApart tune set)
    (matched : matchesStream tune.poolManager set log kind = true) (decoded : decodeLog set log kind = some e) :
    ∃ eventKind poolKey token payload, e = eventOf log eventKind poolKey token payload ∧
      (eventKind = .swap → kind = .clPools ∧ log.topic = .swap ∧ log.args = some payload ∧ poolKey = keyOf set.cl log.contract ∧
        ∃ venue, poolKey = some (formatEmergingPoolKey venue log.contract)) ∧
      (eventKind ≠ .swap → log.topic = .swap → log.contract = tune.poolManager) := by
  cases kind with
  | v4Pools =>
    obtain ⟨key, -, rfl⟩ := Option.map_eq_some_iff.mp decoded
    refine ⟨_, _, _, _, rfl, nofun, fun _ _ => ?_⟩
    simp only [matchesStream, Bool.and_eq_true, decide_eq_true_eq] at matched
    exact matched.1
  | clPools =>
    simp only [decodeLog, Option.bind_eq_bind, Option.bind_eq_some_iff, Option.pure_def, Option.some.injEq] at decoded
    obtain ⟨key, found, eventKind, named, payload, args, rfl⟩ := decoded
    refine ⟨_, _, _, _, rfl, fun swap => ?_, fun noSwap topic => ?_⟩
    · subst swap
      obtain ⟨venue, same⟩ := apart.keys _ (keyOf_mem found)
      refine ⟨rfl, ?_, args, found.symm, venue, congrArg some same⟩
      cases topic : log.topic <;> rw [topic] at named <;> simp [Topic.eventKind] at named ⊢
    · rw [topic] at named
      exact absurd (Option.some.inj named).symm noSwap
  | tokens =>
    simp only [decodeLog, Option.bind_eq_bind, Option.bind_eq_some_iff, Option.pure_def, Option.some.injEq] at decoded
    obtain ⟨eventKind, named, payload, -, rfl⟩ := decoded
    simp only [matchesStream, Bool.and_eq_true, decide_eq_true_eq] at matched
    rw [matched.2] at named
    obtain rfl := Option.some.inj named
    refine ⟨_, _, _, _, rfl, nofun, fun _ topic => ?_⟩
    rw [matched.2] at topic
    cases topic

theorem mem_getLogs {lo hi : ℕ} :
    log ∈ getLogs tune chain set kind lo hi ↔
      log ∈ chain.logs ∧ lo ≤ log.blockNumber ∧ log.blockNumber ≤ hi ∧ matchesStream tune.poolManager set log kind = true := by
  simp [getLogs]

theorem page_row {lo hi : ℕ} (apart : SetApart tune set)
    (listed : row.toEventInsert ∈ (getLogs tune chain set kind lo hi).filterMap fun log => decodeLog set log kind)
    (canonical : row.canonical = true) :
    ∃ log ∈ getLogs tune chain set kind lo hi, RowOf tune log row ∧ Recorded tune chain row ∧
      (row.kind = .swap → kind = .clPools ∧ row.poolKey = keyOf set.cl log.contract) := by
  obtain ⟨log, inside, decoded⟩ := List.mem_filterMap.mp listed
  obtain ⟨member, -, -, matched⟩ := mem_getLogs.mp inside
  obtain ⟨eventKind, poolKey, token, payload, same, swap, other⟩ := decodeLog_spec apart matched decoded
  obtain ⟨e, rid, flag⟩ := row
  dsimp only at same canonical
  subst same canonical
  have facts : RowOf tune log ⟨eventOf log eventKind poolKey token payload, rid, true⟩ := by
    refine ⟨⟨rfl, rfl⟩, rfl, rfl, fun isSwap => ?_, other⟩
    obtain ⟨-, topic, args, -, venue, named⟩ := swap isSwap
    exact ⟨topic, args, venue, named⟩
  refine ⟨log, inside, facts, ⟨⟨log, member, facts⟩, eventBlockTs_true member⟩, fun isSwap => ?_⟩
  obtain ⟨page, -, -, key, -⟩ := swap isSwap
  exact ⟨page, key⟩

theorem page_present {lo hi : ℕ} {e : EventInsert}
    (inside : log ∈ getLogs tune chain set kind lo hi) (decoded : decodeLog set log kind = some e) :
    ∃ row ∈ ((getLogs tune chain set kind lo hi).filterMap fun log => decodeLog set log kind).foldl insertEvent events,
      row.txHash = e.txHash ∧ row.logIndex = e.logIndex := by
  have batched := @insertEvents_batched events ((getLogs tune chain set kind lo hi).filterMap fun log => decodeLog set log kind)
  rcases batched.present e (List.mem_filterMap.mpr ⟨log, inside, decoded⟩) with waiting | done
  · cases waiting
  · exact done

theorem decodeLog_swap {entry : ℕ × ℕ} (apart : SetApart tune set) (member : entry ∈ set.cl)
    (contract : log.contract = entry.1) (topic : log.topic = .swap) (args : log.args ≠ none) :
    ∃ payload, decodeLog set log .clPools = some (eventOf log .swap (some entry.2) none payload) := by
  obtain ⟨payload, given⟩ := Option.ne_none_iff_exists'.mp args
  refine ⟨payload, ?_⟩
  simp [decodeLog, contract, keyOf_single apart.single member, topic, Topic.eventKind, given]

theorem scannedThrough_setCursor_other {cursor : Option Cursor} (other : kind ≠ .clPools) :
    scannedThrough (setCursor kind cursor scan) = scannedThrough scan := by
  unfold scannedThrough setCursor
  dsimp only
  rw [if_neg (Ne.symm other)]

theorem scannedThrough_setCursor {cursor : Option Cursor} :
    scannedThrough (setCursor .clPools cursor scan) = cursor.map Cursor.blockNumber := rfl

theorem Scanned.seedStream {block : ℕ} (scanned : Scanned tune chain scan set) (fresh : scan.cursors kind = none)
    (untraded : kind = .clPools → ∀ entry ∈ set.cl, Untraded chain entry.1 (chain.ts block) block) :
    Scanned tune chain (seedStream chain kind block scan) set := by
  by_cases own : kind = .clPools
  · subst own
    refine ⟨scanned.keyed, scanned.recorded, fun row member swap => ?_, fun _ _ => ⟨_, rfl⟩, scanned.apart, ?_⟩
    · -- no swap is stored before the stream has a cursor
      obtain ⟨old, reached, -⟩ := scanned.behind row member swap
      simp [scannedThrough, fresh] at reached
    · intro reached through seed seeded entry member log inside contract topic bounded early
      obtain rfl := Option.some.inj through
      obtain rfl := Option.some.inj seeded
      have before := untraded rfl entry member log inside contract topic bounded
      exact absurd early (not_le.mpr before)
  · have through : scannedThrough (Emerging.seedStream chain kind block scan) = scannedThrough scan :=
      scannedThrough_setCursor_other own
    have seeds : (Emerging.seedStream chain kind block scan).seeds .clPools = scan.seeds .clPools := if_neg (Ne.symm own)
    refine ⟨scanned.keyed, scanned.recorded, ?_, ?_, scanned.apart, ?_⟩
    · rw [through]
      exact scanned.behind
    · rw [through, seeds]
      exact scanned.seeded
    · rw [through, seeds]
      exact scanned.covered

theorem Scanned.scanPage {cursor : Cursor} {hi : ℕ} (scanned : Scanned tune chain scan set)
    (read : scan.cursors kind = some cursor) (forward : cursor.blockNumber < hi)
    (decodes : kind = .clPools → ∀ log ∈ getLogs tune chain set .clPools (cursor.blockNumber + 1) hi, log.topic = .swap → log.args ≠ none) :
    Scanned tune chain (scanPage tune chain set kind cursor hi scan) set := by
  set batch := (getLogs tune chain set kind (cursor.blockNumber + 1) hi).filterMap fun log => decodeLog set log kind with batchEq
  have batched : Batched scan.events batch (batch.foldl insertEvent scan.events) [] := insertEvents_batched batch
  have recorded : ∀ row ∈ batch.foldl insertEvent scan.events, Recorded tune chain row := by
    intro row member
    rcases batched.fresh row member with old | ⟨listed, canonical⟩
    · exact scanned.recorded row old
    · obtain ⟨log, -, -, facts, -⟩ := page_row scanned.apart listed canonical
      exact facts
  by_cases own : kind = .clPools
  · subst own
    have before : scannedThrough scan = some cursor.blockNumber := by
      unfold scannedThrough
      rw [read]
      rfl
    refine ⟨batched.keyed scanned.keyed, recorded, fun row member swap => ⟨hi, rfl, ?_⟩, fun _ _ => ?_, scanned.apart, ?_⟩
    · rcases batched.fresh row member with old | ⟨listed, canonical⟩
      · obtain ⟨block, reached, bounded⟩ := scanned.behind row old swap
        rw [before] at reached
        obtain rfl := Option.some.inj reached
        omega
      · obtain ⟨log, inside, facts, -, -⟩ := page_row scanned.apart listed canonical
        rw [facts.block]
        exact (mem_getLogs.mp inside).2.2.1
    · exact scanned.seeded _ before
    · intro block through seed seeded entry inSet log inside contract topic bounded early
      obtain rfl := Option.some.inj through
      by_cases behind : log.blockNumber ≤ cursor.blockNumber
      · exact (scanned.covered _ before seed seeded entry inSet log inside contract topic behind early).mono batched.kept
      · have matched : matchesStream tune.poolManager set log .clPools = true := by
          simp only [matchesStream, topic, contract, Bool.and_eq_true, decide_eq_true_eq]
          exact ⟨List.mem_map_of_mem inSet, by simp⟩
        have paged : log ∈ getLogs tune chain set .clPools (cursor.blockNumber + 1) hi :=
          mem_getLogs.mpr ⟨inside, by omega, bounded, matched⟩
        obtain ⟨payload, decoded⟩ := decodeLog_swap scanned.apart inSet contract topic (decodes rfl log paged topic)
        obtain ⟨row, member, tx, index⟩ := @page_present _ _ scan.events _ _ _ _ _ _ paged decoded
        have rowOf := (recorded row member).rowOf inside ⟨tx, index⟩
        have swap : row.kind = .swap := by
          by_contra noSwap
          exact scanned.apart.manager entry inSet (contract ▸ rowOf.other noSwap topic)
        refine ⟨row, member, rowOf.same, swap, ?_, rowOf.canonical⟩
        rcases batched.fresh row member with old | ⟨listed, canonical⟩
        · -- a swap that was stored before the page is behind the cursor
          obtain ⟨block, reached, bounded⟩ := scanned.behind row old swap
          rw [before] at reached
          obtain rfl := Option.some.inj reached
          rw [rowOf.block] at bounded
          exact absurd bounded behind
        · obtain ⟨other, otherPaged, facts, -, keyed⟩ := page_row scanned.apart listed canonical
          have one := log_unique (mem_getLogs.mp otherPaged).1 inside (facts.same.1.symm.trans tx) (facts.same.2.symm.trans index)
          rw [(keyed swap).2, one, contract]
          exact keyOf_single scanned.apart.single inSet
  · have through : scannedThrough (Emerging.scanPage tune chain set kind cursor hi scan) = scannedThrough scan :=
      scannedThrough_setCursor_other own
    refine ⟨batched.keyed scanned.keyed, recorded, fun row member swap => ?_, ?_, scanned.apart, ?_⟩
    · rw [through]
      rcases batched.fresh row member with old | ⟨listed, canonical⟩
      · exact scanned.behind row old swap
      · obtain ⟨log, -, -, -, keyed⟩ := page_row scanned.apart listed canonical
        exact absurd (keyed swap).1 own
    · rw [through]
      exact scanned.seeded
    · rw [through]
      intro block reached seed seeded entry inSet log inside contract topic bounded early
      exact (scanned.covered block reached seed seeded entry inSet log inside contract topic bounded early).mono batched.kept

theorem Scanned.dataGap {status : StreamStatus} (scanned : Scanned tune chain scan set) :
    Scanned tune chain (setEmergingStreamStatus kind status scan) set := by
  have through : scannedThrough (setEmergingStreamStatus kind status scan) = scannedThrough scan := by
    by_cases own : kind = .clPools
    · subst own
      unfold setEmergingStreamStatus
      rw [scannedThrough_setCursor, Option.map_map]
      rfl
    · exact scannedThrough_setCursor_other own
  refine ⟨scanned.keyed, scanned.recorded, ?_, ?_, scanned.apart, ?_⟩
  · rw [through]
    exact scanned.behind
  · rw [through]
    exact scanned.seeded
  · rw [through]
    exact scanned.covered

def withDate (block ts : ℕ) (row : ChainEvent) : ChainEvent :=
  if row.blockNumber = block ∧ row.blockTs = none then { row with blockTs := some ts } else row

theorem withDate_same (block ts : ℕ) (row : ChainEvent) : withDate block ts row = { row with blockTs := (withDate block ts row).blockTs } := by
  unfold withDate
  split <;> rfl

theorem RowOf.withDate (facts : RowOf tune log row) (block ts : ℕ) :
    RowOf tune log (withDate block ts row) := by
  rw [withDate_same]
  exact ⟨facts.same, facts.block, facts.canonical, facts.swap, facts.other⟩

theorem Recorded.withDate (recorded : Recorded tune chain row) (block : ℕ) :
    Recorded tune chain (withDate block (chain.ts block) row) := by
  obtain ⟨⟨log, logged, facts⟩, truth⟩ := recorded
  refine ⟨⟨log, logged, facts.withDate block _⟩, ?_⟩
  unfold Minutes.withDate
  split
  · rename_i here
    intro ts given
    rw [← Option.some.inj given]
    exact congrArg chain.ts here.1.symm
  · exact truth

theorem StoredSwap.withDate {poolKey : ℕ} (stored : StoredSwap events poolKey log) (block ts : ℕ) :
    StoredSwap (dateBlock events block ts) poolKey log := by
  obtain ⟨row, member, facts⟩ := stored
  refine ⟨Minutes.withDate block ts row, List.mem_map_of_mem member, ?_⟩
  rw [withDate_same]
  exact facts

theorem Scanned.dateBlock (scanned : Scanned tune chain scan set) (block : ℕ) :
    Scanned tune chain { scan with events := dateBlock scan.events block (chain.ts block) } set := by
  refine ⟨?_, fun row member => ?_, fun row member swap => ?_, scanned.seeded, scanned.apart, ?_⟩
  · refine List.pairwise_map.mpr (scanned.keyed.imp fun {first second} differ => ?_)
    rw [← Minutes.withDate.eq_def, ← Minutes.withDate.eq_def, withDate_same block _ first, withDate_same block _ second]
    exact differ
  · obtain ⟨old, inside, rfl⟩ := List.mem_map.mp member
    exact (scanned.recorded old inside).withDate block
  · obtain ⟨old, inside, rfl⟩ := List.mem_map.mp member
    rw [← Minutes.withDate.eq_def, withDate_same] at swap ⊢
    exact scanned.behind old inside swap
  · intro through reached seed seeded entry inSet log inside contract topic bounded early
    exact (scanned.covered through reached seed seeded entry inSet log inside contract topic bounded early).withDate block _

theorem Scanned.refilter {next : TrackedSet} (scanned : Scanned tune chain scan set) (apart : SetApart tune next)
    (filtered : ∀ entry ∈ next.cl, entry ∈ set.cl ∨ UntradedBehind chain scan entry.1) : Scanned tune chain scan next := by
  refine ⟨scanned.keyed, scanned.recorded, scanned.behind, scanned.seeded, apart, ?_⟩
  intro block reached seed seeded entry inSet log inside contract topic bounded early
  rcases filtered entry inSet with known | untraded
  · exact scanned.covered block reached seed seeded entry known log inside contract topic bounded early
  · exact absurd early (not_le.mpr (untraded block reached seed seeded log inside contract topic bounded))

end LpTerminal.Emerging.Minutes
