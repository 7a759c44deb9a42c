import LpTerminal.Catalog.LogScan
import LpTerminal.Catalog.LogScanExact
import LpTerminal.Catalog.Rows
import LpTerminal.Lib.Trace

/-!
The replay of the position manager's transfers into the table of owners: runs of the tail, their windows and the crashes
between. The table is the replay up to the cursor in every run whose windows are committed at the cursor.
-/

namespace LpTerminal.Catalog.V4Positions

open LogScan (Window Options)

/-- A topic of a log: the digits behind its `0x`, and the number they spell. -/
structure Topic where
  digits : ℕ
  value : ℕ

structure TransferLog where
  topics : List Topic
  blockNumber : ℤ

/-- The position index's first block, and `RPC_WINDOW_BLOCKS`. -/
structure PositionIndex where
  genesisBlock : ℤ
  rpcWindowBlocks : ℕ
  genesisPositive : 0 < genesisBlock

structure History (index : PositionIndex) where
  logs : List TransferLog
  ordered : logs.Pairwise fun first second => first.blockNumber ≤ second.blockNumber
  fromGenesis : ∀ log ∈ logs, index.genesisBlock ≤ log.blockNumber

def History.between {index : PositionIndex} (history : History index) (window : Window) : List TransferLog :=
  history.logs.filter fun log => window.fromBlock ≤ log.blockNumber ∧ log.blockNumber ≤ window.toBlock

structure PositionOwner where
  tokenId : ℕ
  owner : Address
  updatedBlock : ℤ
deriving DecidableEq

abbrev Owners := Table PositionOwner.tokenId

def applyV4Transfer (tokenId : ℕ) (recipient : Address) (block : ℤ) (owners : Owners) : Owners :=
  if recipient = 0 then owners.remove tokenId else owners.put { tokenId, owner := recipient, updatedBlock := block }

def addressWord (topic : Topic) : Except String Address :=
  if topic.digits ≠ 64 then .error "malformed Transfer topic" else .ok (topic.value % 2 ^ 160)

def tokenIdOf (topic : Topic) : Except String ℕ :=
  if maxSafeInteger < topic.value then .error "Transfer tokenId exceeds the safe-integer range" else .ok topic.value

def applyRow (row : TransferLog) (owners : Owners) : Except String Owners :=
  match row.topics with
  | [_, _, recipient, id] =>
    if maxSafeInteger < row.blockNumber.natAbs then .error "v4 PositionManager Transfer has an invalid block number"
    else do
      let tokenId ← tokenIdOf id
      let owner ← addressWord recipient
      pure (applyV4Transfer tokenId owner row.blockNumber owners)
  | _ => .error "malformed Transfer log: expected 4 topics"

def applyRows : List TransferLog → Owners → Except String Owners
  | [], owners => .ok owners
  | row :: rest, owners => do
    let owners ← applyRow row owners
    applyRows rest owners

/-- `cursor` is `v4_position_cursor` in `kv`. -/
structure Store where
  owners : Owners
  cursor : Option ℤ
  backfilled : Bool

/-- A call of `tailV4Positions` that has begun its scan. -/
structure Run where
  options : Options
  scan : LogScan.World (List TransferLog)

/-- The store, every run of the process, and for the proofs all rows that were applied. -/
structure World where
  store : Store
  runs : List Run
  applied : List TransferLog

def World.fresh : World :=
  { store := { owners := Table.empty, cursor := none, backfilled := false }, runs := [], applied := [] }

def cursorOf (index : PositionIndex) (store : Store) : ℤ :=
  match store.cursor with
  | some stored => if 0 < stored then stored else index.genesisBlock - 1
  | none => index.genesisBlock - 1

def scanOptions (index : PositionIndex) (cursor head : ℤ) : Options :=
  { fromBlock := cursor + 1, toBlock := head, maxWindowBlocks := index.rpcWindowBlocks, concurrency := some 3 }

def published (scan : LogScan.World (List TransferLog)) (store : Store) : Store :=
  match scan.phase with
  | .returned => { store with backfilled := true }
  | _ => store

/-- The run from the reply of `getBlockNumber` to its first calls. A head that is not positive or behind the cursor throws. -/
def tailV4Positions (index : PositionIndex) (head : ℤ) (w : World) : World :=
  let cursor := cursorOf index w.store
  if head ≤ 0 ∨ head < cursor then w
  else
    let options := scanOptions index cursor head
    let scan := LogScan.start options
    { w with store := published scan w.store, runs := w.runs ++ [{ options, scan }] }

/-- `commitWindow`: rows and cursor in one transaction. -/
def commitWindow (window : LogScan.Commit (List TransferLog)) (store : Store) : Except String Store := do
  let owners ← applyRows window.rows store.owners
  pure { store with owners, cursor := some window.window.toBlock }

inductive Event
  | starts (head : ℤ)
  /-- A request is answered with the logs of its window, or rejected. -/
  | fetchSettles (run call : ℕ) (rejection : Option String)
  | commits (run : ℕ)
  | crashes

def advanceRun (w : World) (at' : ℕ) (run : Run) (event : LogScan.Event (List TransferLog)) : World :=
  let scan := LogScan.step run.options run.scan event
  { w with store := published scan w.store, runs := w.runs.set at' { run with scan } }

def fetchSettles (index : PositionIndex) (history : History index) (at' call : ℕ) (rejection : Option String) (w : World) : World :=
  match w.runs[at']? with
  | none => w
  | some run =>
    match run.scan.fetches[call]? with
    | none => w
    | some fetch =>
      advanceRun w at' run (.fetchSettles call
        (match rejection with
          | some reason => .error reason
          | none => .ok (history.between fetch.window)))

def commits (at' : ℕ) (w : World) : World :=
  match w.runs[at']? with
  | none => w
  | some run =>
    match run.scan.phase with
    | .committing window _ =>
      match commitWindow window w.store with
      | .ok store =>
        advanceRun { w with store, applied := w.applied ++ window.rows } at' run (.commitSettles (.ok ()))
      | .error reason => advanceRun w at' run (.commitSettles (.error reason))
    | _ => w

def step (index : PositionIndex) (history : History index) (w : World) : Event → World
  | .starts head => tailV4Positions index head w
  | .fetchSettles run call rejection => fetchSettles index history run call rejection w
  | .commits run => commits run w
  | .crashes => { w with runs := [] }

variable {index : PositionIndex} {history : History index}

def History.upTo (history : History index) (block : ℤ) : List TransferLog :=
  history.logs.filter fun log => log.blockNumber ≤ block

def tokenOf (log : TransferLog) : ℕ := ((log.topics[3]?).map Topic.value).getD 0

def recipientOf (log : TransferLog) : Address := ((log.topics[2]?).map fun topic => topic.value % 2 ^ 160).getD 0

def ownerAfter (logs : List TransferLog) (tokenId : ℕ) : Option PositionOwner :=
  match logs.reverse.find? fun log => tokenOf log = tokenId with
  | some log => if recipientOf log = 0 then none else some { tokenId, owner := recipientOf log, updatedBlock := log.blockNumber }
  | none => none

theorem applyRow_reads {row : TransferLog} {owners after : Owners} (applied : applyRow row owners = .ok after) :
    after = applyV4Transfer (tokenOf row) (recipientOf row) row.blockNumber owners := by
  unfold applyRow at applied
  split at applied
  · rename_i first second recipient id topics
    split at applied
    · cases applied
    · unfold tokenIdOf addressWord at applied
      split at applied
      · cases applied
      · split at applied
        · cases applied
        · simp only [tokenOf, recipientOf, topics]
          exact (Except.ok.inj applied).symm
  · cases applied

theorem applyRows_append {logs others : List TransferLog} {owners : Owners} :
    applyRows (logs ++ others) owners = (applyRows logs owners).bind (applyRows others) := by
  induction logs generalizing owners with
  | nil => rfl
  | cons row rest ih =>
    simp only [List.cons_append, applyRows]
    cases applyRow row owners with
    | error reason => rfl
    | ok next => exact ih

theorem applyRows_concat {logs : List TransferLog} {row : TransferLog} {owners after : Owners}
    (applied : applyRows (logs ++ [row]) owners = .ok after) :
    ∃ before, applyRows logs owners = .ok before ∧ applyRow row before = .ok after := by
  rw [applyRows_append] at applied
  cases first : applyRows logs owners with
  | error reason =>
    rw [first] at applied
    cases applied
  | ok before =>
    refine ⟨before, rfl, ?_⟩
    rw [first] at applied
    simp only [Except.bind, applyRows] at applied
    cases second : applyRow row before with
    | error reason =>
      rw [second] at applied
      cases applied
    | ok last =>
      rw [second] at applied
      exact applied

theorem get?_applyRows {logs : List TransferLog} {after : Owners} (applied : applyRows logs Table.empty = .ok after) (tokenId : ℕ) :
    after.get? tokenId = ownerAfter logs tokenId := by
  induction logs using List.reverseRecOn generalizing after with
  | nil =>
    obtain rfl := Except.ok.inj applied
    rfl
  | append_singleton logs row ih =>
    obtain ⟨before, earlier, last⟩ := applyRows_concat applied
    have known := ih earlier
    rw [applyRow_reads last]
    unfold ownerAfter applyV4Transfer
    rw [List.reverse_append, List.reverse_singleton, List.singleton_append, List.find?_cons]
    by_cases own : tokenOf row = tokenId
    · subst own
      simp only [decide_true]
      split
      · exact Table.get?_remove_same before _
      · exact Table.get?_put_same before { tokenId := tokenOf row, owner := recipientOf row, updatedBlock := row.blockNumber }
    · simp only [own, decide_false]
      split
      · rw [Table.get?_remove_other (Ne.symm own), known]
        rfl
      · have apart : tokenId ≠ PositionOwner.tokenId ⟨tokenOf row, recipientOf row, row.blockNumber⟩ := Ne.symm own
        exact (Table.get?_put_other apart).trans known

def Answered (history : History index) (scan : LogScan.World (List TransferLog)) : Prop :=
  ∀ fetch ∈ scan.fetches, ∀ rows, fetch.outcome = some (.ok rows) → rows = history.between fetch.window

structure RunLaw (history : History index) (run : Run) : Prop where
  scan : LogScan.Law run.options run.scan
  answered : Answered history run.scan

structure Law (history : History index) (w : World) : Prop where
  low : index.genesisBlock ≤ cursorOf index w.store + 1
  applied : w.applied = history.upTo (cursorOf index w.store)
  replayed : applyRows w.applied Table.empty = .ok w.store.owners
  runs : ∀ run ∈ w.runs, RunLaw history run

def Resumes (index : PositionIndex) (w : World) : Event → Prop
  | .commits at' => ∀ run, w.runs[at']? = some run → ∀ window rest, run.scan.phase = .committing window rest →
      cursorOf index w.store + 1 = window.window.fromBlock
  | _ => True

@[simp] theorem published_owners (scan : LogScan.World (List TransferLog)) (store : Store) :
    (published scan store).owners = store.owners := by
  unfold published
  split <;> rfl

@[simp] theorem cursorOf_published (scan : LogScan.World (List TransferLog)) (store : Store) :
    cursorOf index (published scan store) = cursorOf index store := by
  unfold published
  split <;> rfl

theorem upTo_next (history : History index) (lo hi : ℤ) (size : lo ≤ hi + 1) :
    history.upTo (lo - 1) ++ history.between ⟨lo, hi⟩ = history.upTo hi := by
  unfold History.upTo History.between
  have ordered := history.ordered
  generalize history.logs = logs at ordered ⊢
  induction logs with
  | nil => rfl
  | cons log rest ih =>
    obtain ⟨first, others⟩ := List.pairwise_cons.mp ordered
    by_cases before : log.blockNumber ≤ lo - 1
    · simp only [List.filter_cons, before, decide_true, if_true]
      rw [if_neg (by simp; omega), if_pos (by simp; omega), ← ih others]
      rfl
    · -- past the first window nothing is below it
      have none : rest.filter (fun log => decide (log.blockNumber ≤ lo - 1)) = [] := by
        refine List.filter_eq_nil_iff.mpr fun other inside => ?_
        have above := first other inside
        simp only [decide_eq_true_eq]
        omega
      have later := ih others
      rw [none, List.nil_append] at later
      simp only [List.filter_cons, before, decide_false, Bool.false_eq_true, if_false, none, List.nil_append, later]
      by_cases within : log.blockNumber ≤ hi
      · rw [if_pos (by simp; omega), if_pos (by simpa using within)]
      · rw [if_neg (by simp; omega), if_neg (by simpa using within)]

theorem fresh_law : Law history World.fresh where
  low := by simp [World.fresh, cursorOf]
  applied := by
    refine (List.filter_eq_nil_iff.mpr fun log inside => ?_).symm
    have first := history.fromGenesis log inside
    show ¬ decide (log.blockNumber ≤ index.genesisBlock - 1) = true
    rw [decide_eq_true_eq]
    omega
  replayed := rfl
  runs := by simp [World.fresh]

section Steps

variable {w : World} {run : Run} {at' : ℕ}

theorem start_answered (options : Options) : Answered history (LogScan.start options) := by
  intro fetch inside rows settled
  unfold LogScan.start at inside
  dsimp only at inside
  split at inside
  · cases inside
  · rcases LogScan.mem_nextBatch inside with old | unsettled
    · cases old
    · rw [unsettled] at settled
      cases settled

theorem RunLaw.step {event : LogScan.Event (List TransferLog)} (law : RunLaw history run)
    (answers : ∀ call rows, event = .fetchSettles call (.ok rows) → ∀ fetch, run.scan.fetches[call]? = some fetch →
      rows = history.between fetch.window) :
    RunLaw history { run with scan := LogScan.step run.options run.scan event } := by
  refine ⟨LogScan.step_law law.scan event, fun fetch inside rows settled => ?_⟩
  rcases LogScan.mem_step inside with old | unsettled | ⟨call, outcome, before, rfl, found, rfl⟩
  · exact law.answered fetch old rows settled
  · rw [unsettled] at settled
    cases settled
  · obtain rfl := Option.some.inj settled
    exact answers call rows rfl before found

theorem runs_set {runs : List Run} (laws : ∀ run ∈ runs, RunLaw history run) (own : RunLaw history run) :
    ∀ other ∈ runs.set at' run, RunLaw history other := by
  intro other inside
  rcases List.mem_or_eq_of_mem_set inside with old | rfl
  · exact laws other old
  · exact own

theorem starts_law (law : Law history w) (head : ℤ) : Law history (tailV4Positions index head w) := by
  unfold tailV4Positions
  dsimp only
  split
  · exact law
  · refine ⟨by simpa using law.low, by simpa using law.applied, by simpa using law.replayed, fun run inside => ?_⟩
    rcases List.mem_append.mp inside with old | new
    · exact law.runs run old
    · rw [List.mem_singleton.mp new]
      exact ⟨LogScan.start_law _, start_answered _⟩

theorem fetchSettles_law (law : Law history w) (call : ℕ) (rejection : Option String) :
    Law history (fetchSettles index history at' call rejection w) := by
  unfold fetchSettles
  split
  · exact law
  · rename_i run found
    split
    · exact law
    · rename_i fetch asked
      have own := law.runs run (List.mem_of_getElem? found)
      unfold advanceRun
      refine ⟨by simpa using law.low, by simpa using law.applied, by simpa using law.replayed, runs_set law.runs ?_⟩
      refine own.step fun other rows settles other' foundToo => ?_
      obtain ⟨rfl, answer⟩ := LogScan.Event.fetchSettles.inj settles
      rw [asked] at foundToo
      obtain rfl := Option.some.inj foundToo
      cases rejection with
      | some reason => cases answer
      | none => exact (Except.ok.inj answer).symm

theorem RunLaw.window_rows (own : RunLaw history run) {window : LogScan.Commit (List TransferLog)}
    {rest : List (LogScan.Commit (List TransferLog))} (phase : run.scan.phase = .committing window rest) :
    window.rows = history.between window.window ∧ window.window.fromBlock = run.scan.lo ∧
      window.window.fromBlock ≤ window.window.toBlock := by
  have committing := own.scan.phase
  unfold LogScan.PhaseLaw at committing
  rw [phase] at committing
  obtain ⟨hi, -, starts, size, -⟩ := committing.tiles
  obtain ⟨call, found⟩ := own.scan.base.fetched window (by rw [committing.commits]; simp)
  exact ⟨own.answered _ (List.mem_of_getElem? found) window.rows rfl, starts, starts.trans_le size⟩

theorem commitWindow_ok {window : LogScan.Commit (List TransferLog)} {store after : Store} (index : PositionIndex)
    (committed : commitWindow window store = .ok after) (positive : 0 < window.window.toBlock) :
    (∃ owners, applyRows window.rows store.owners = .ok owners ∧
      after = { store with owners, cursor := some window.window.toBlock }) ∧ cursorOf index after = window.window.toBlock := by
  unfold commitWindow at committed
  cases rowsApplied : applyRows window.rows store.owners with
  | error reason =>
    rw [rowsApplied] at committed
    cases committed
  | ok owners =>
    rw [rowsApplied] at committed
    obtain rfl := Except.ok.inj committed
    refine ⟨⟨owners, rfl, rfl⟩, ?_⟩
    simp only [cursorOf]
    rw [if_pos positive]

theorem commits_law (law : Law history w) (resumes : Resumes index w (.commits at')) : Law history (commits at' w) := by
  unfold commits
  split
  · exact law
  · rename_i run found
    have own := law.runs run (List.mem_of_getElem? found)
    split
    · rename_i window rest phase
      split
      · rename_i store committed
        obtain ⟨rows, -, size⟩ := own.window_rows phase
        have cursor := resumes run found window rest phase
        have low := law.low
        have positive := index.genesisPositive
        obtain ⟨⟨owners, stored, rfl⟩, next⟩ := commitWindow_ok index committed (by omega)
        refine ⟨?_, ?_, ?_, runs_set law.runs (own.step fun call rows settles => by cases settles)⟩
        · simp only [advanceRun, cursorOf_published, next]
          omega
        · simp only [advanceRun, cursorOf_published, next]
          rw [law.applied, rows]
          have joined := upTo_next history window.window.fromBlock window.window.toBlock (by omega)
          have before : cursorOf index w.store = window.window.fromBlock - 1 := by omega
          rw [before]
          exact joined
        · simp only [advanceRun, published_owners]
          rw [applyRows_append, law.replayed]
          exact stored
      · refine ⟨?_, ?_, ?_, runs_set law.runs (own.step fun call rows settles => by cases settles)⟩
        · simpa [advanceRun] using law.low
        · simpa [advanceRun] using law.applied
        · simpa [advanceRun] using law.replayed
    · exact law

theorem step_law (law : Law history w) (event : Event) (resumes : Resumes index w event) : Law history (step index history w event) := by
  cases event with
  | starts head => exact starts_law law head
  | fetchSettles at' call rejection => exact fetchSettles_law law call rejection
  | commits at' => exact commits_law law resumes
  | crashes => exact ⟨law.low, law.applied, law.replayed, by simp [step]⟩

def Alone (w : World) : Event → Prop
  | .starts _ => ∀ run ∈ w.runs, run.scan.Ended
  | _ => True

def OneRun (index : PositionIndex) (w : World) : Prop :=
  ∀ (at' : ℕ) (run : Run), w.runs[at']? = some run → ¬ run.scan.Ended → run.scan.lo = cursorOf index w.store + 1 ∧
    ∀ (other : ℕ) (another : Run), w.runs[other]? = some another → ¬ another.scan.Ended → other = at'

theorem ended_step (own : RunLaw history run) (ended : run.scan.Ended) (event : LogScan.Event (List TransferLog)) :
    LogScan.step run.options run.scan event = run.scan := by
  have settled : run.scan.Settled := by
    have phase := own.scan.phase
    unfold LogScan.PhaseLaw at phase
    rcases ended with returned | ⟨error, threw⟩
    · rw [returned] at phase
      exact phase.1
    · rw [threw] at phase
      exact phase.1
  cases event with
  | fetchSettles call outcome => simp [LogScan.step, settled call]
  | commitSettles outcome =>
    rcases ended with returned | ⟨error, threw⟩
    · simp [LogScan.step, returned]
    · simp [LogScan.step, threw]

theorem starts_one (one : OneRun index w) (head : ℤ) (alone : Alone w (.starts head)) :
    OneRun index (tailV4Positions index head w) := by
  unfold tailV4Positions
  dsimp only
  split
  · exact one
  · intro at' run found running
    have old (other : ℕ) (another : Run) (below : other < w.runs.length)
        (read : (w.runs ++ [⟨scanOptions index (cursorOf index w.store) head,
          LogScan.start (scanOptions index (cursorOf index w.store) head)⟩])[other]? = some another) : another.scan.Ended := by
      rw [List.getElem?_append_left below] at read
      exact alone another (List.mem_of_getElem? read)
    have last (other : ℕ) (another : Run)
        (read : (w.runs ++ [⟨scanOptions index (cursorOf index w.store) head,
          LogScan.start (scanOptions index (cursorOf index w.store) head)⟩])[other]? = some another)
        (going : ¬ another.scan.Ended) : other = w.runs.length := by
      have inside := (List.getElem?_eq_some_iff.mp read).1
      rw [List.length_append, List.length_singleton] at inside
      by_contra different
      exact going (old other another (by omega) read)
    have own := last at' run found running
    subst own
    rw [List.getElem?_concat_length, Option.some.injEq] at found
    subst found
    refine ⟨?_, fun other another read going => last other another read going⟩
    rw [cursorOf_published]
    exact LogScan.start_lo _

theorem set_one {store : Store} {applied : List TransferLog} {scan : LogScan.World (List TransferLog)}
    (found : w.runs[at']? = some run)
    (only : ∀ (other : ℕ) (another : Run), w.runs[other]? = some another → ¬ another.scan.Ended → other = at')
    (lo : ¬ scan.Ended → scan.lo = cursorOf index store + 1) :
    OneRun index { store, runs := w.runs.set at' { run with scan }, applied } := by
  have same (other : ℕ) (another : Run) (read : (w.runs.set at' { run with scan })[other]? = some another)
      (going : ¬ another.scan.Ended) : other = at' := by
    by_contra different
    rw [List.getElem?_set_ne (Ne.symm different)] at read
    exact different (only other another read going)
  intro other another read going
  have own := same other another read going
  subst own
  rw [List.getElem?_set_self (List.getElem?_eq_some_iff.mp found).1, Option.some.injEq] at read
  subst read
  exact ⟨lo going, same⟩

theorem set_same {runs : List Run} (found : runs[at']? = some run) : runs.set at' run = runs := by
  obtain ⟨below, rfl⟩ := List.getElem?_eq_some_iff.mp found
  exact List.set_getElem_self below

theorem fetchSettles_one (law : Law history w) (one : OneRun index w) (call : ℕ) (rejection : Option String) :
    OneRun index (fetchSettles index history at' call rejection w) := by
  unfold fetchSettles
  split
  · exact one
  · rename_i run found
    split
    · exact one
    · rename_i fetch asked
      unfold advanceRun
      by_cases ended : run.scan.Ended
      · rw [ended_step (law.runs run (List.mem_of_getElem? found)) ended]
        show OneRun index { store := published run.scan w.store, runs := w.runs.set at' run, applied := w.applied }
        rw [set_same found]
        intro other another read going
        rw [cursorOf_published]
        exact one other another read going
      · refine set_one found (one at' run found ended).2 fun _ => ?_
        rw [LogScan.fetchSettles_lo, cursorOf_published]
        exact (one at' run found ended).1

theorem one_resumes (law : Law history w) (one : OneRun index w) : Resumes index w (.commits at') := by
  intro run found window rest phase
  have running : ¬ run.scan.Ended := by
    rintro (returned | ⟨error, threw⟩)
    · rw [phase] at returned
      cases returned
    · rw [phase] at threw
      cases threw
  rw [((law.runs run (List.mem_of_getElem? found)).window_rows phase).2.1]
  exact (one at' run found running).1.symm

theorem commits_one (law : Law history w) (one : OneRun index w) : OneRun index (commits at' w) := by
  unfold commits
  split
  · exact one
  · rename_i run found
    split
    · rename_i window rest phase
      have own := law.runs run (List.mem_of_getElem? found)
      have running : ¬ run.scan.Ended := by
        rintro (returned | ⟨error, threw⟩)
        · rw [phase] at returned
          cases returned
        · rw [phase] at threw
          cases threw
      split
      · rename_i store committed
        unfold advanceRun
        refine set_one found (one at' run found running).2 fun _ => ?_
        have low := law.low
        have positive := index.genesisPositive
        have cursor := one_resumes law one run found window rest phase
        obtain ⟨-, -, size⟩ := own.window_rows phase
        obtain ⟨-, next⟩ := commitWindow_ok index committed (by omega)
        rw [cursorOf_published, next]
        exact LogScan.commitSettles_lo phase
      · rename_i reason failed
        unfold advanceRun
        refine set_one found (one at' run found running).2 fun going => ?_
        exact absurd (.inr ⟨.commit reason, by simp [LogScan.step, phase]⟩) going
    · exact one

theorem step_one (law : Law history w) (one : OneRun index w) (event : Event) (alone : Alone w event) :
    OneRun index (step index history w event) := by
  cases event with
  | starts head => exact starts_one one head alone
  | fetchSettles at' call rejection => exact fetchSettles_one law one call rejection
  | commits at' => exact commits_one law one
  | crashes =>
    intro at' run found
    simp [step] at found

end Steps

theorem alone_resumes (events : List Event) (alone : Trace.Along (step index history) Alone World.fresh events) :
    Trace.Along (step index history) (Resumes index) World.fresh events := by
  have steps : ∀ w, Law history w → OneRun index w → Trace.Along (step index history) Alone w events →
      Trace.Along (step index history) (Resumes index) w events := by
    clear alone
    induction events with
    | nil => exact fun _ _ _ _ => trivial
    | cons event rest ih =>
      intro w law one alone
      have resumes : Resumes index w event := by
        cases event with
        | commits at' => exact one_resumes law one
        | starts head => trivial
        | fetchSettles at' call rejection => trivial
        | crashes => trivial
      exact ⟨resumes, ih _ (step_law law event resumes) (step_one law one event alone.1) alone.2⟩
  refine steps World.fresh fresh_law ?_ alone
  intro at' run found
  simp [World.fresh] at found

/-- The table and its cursor are the replay of the transfers up to the cursor, each of them applied once and in order. -/
structure Replayed (history : History index) (w : World) : Prop where
  applied : w.applied = history.upTo (cursorOf index w.store)
  owners : ∀ tokenId, w.store.owners.get? tokenId = ownerAfter (history.upTo (cursorOf index w.store)) tokenId

/-- In every run whose windows are committed at the cursor, among them every run without overlaps, the table is the replay. -/
theorem positions_replayed (history : History index) (events : List Event)
    (resumes : Trace.Along (step index history) (Resumes index) World.fresh events ∨
      Trace.Along (step index history) Alone World.fresh events) :
    Replayed history (Trace.run (step index history) World.fresh events) := by
  have along : Trace.Along (step index history) (Resumes index) World.fresh events := resumes.elim id (alone_resumes events)
  have steps : ∀ w event, Law history w → Resumes index w event → Law history (step index history w event) :=
    fun _ event law holds => step_law law event holds
  have law : Law history (Trace.run (step index history) World.fresh events) := Trace.run_keeps steps fresh_law along
  exact ⟨law.applied, fun tokenId => by rw [get?_applyRows law.replayed, law.applied]⟩

def mintLog (block : ℤ) (tokenId : ℕ) : TransferLog :=
  { topics := [⟨64, 1⟩, ⟨64, 0⟩, ⟨64, 161⟩, ⟨64, tokenId⟩], blockNumber := block }

def mintIndex : PositionIndex := { genesisBlock := 10, rpcWindowBlocks := 10, genesisPositive := by decide }

def mintHistory : History mintIndex where
  logs := [mintLog 10 1, mintLog 20 2]
  ordered := by decide
  fromGenesis := by decide

instance (w : World) (event : Event) : Decidable (Alone w event) :=
  match event with
  | .starts _ => inferInstanceAs (Decidable (∀ run ∈ w.runs, run.scan.Ended))
  | .fetchSettles _ _ _ => .isTrue trivial
  | .commits _ => .isTrue trivial
  | .crashes => .isTrue trivial

/-- A crash after the first window, and a second run for the rest. -/
theorem positions_replayed_crash :
    Replayed mintHistory (Trace.run (step mintIndex mintHistory) World.fresh
      [.starts 20, .fetchSettles 0 0 none, .commits 0, .crashes, .starts 20, .fetchSettles 0 0 none, .commits 0]) :=
  positions_replayed mintHistory _ (.inr (by decide))

def overlap : List Event :=
  [.starts 20, .starts 20, .fetchSettles 1 0 none, .commits 1, .fetchSettles 1 1 none, .commits 1, .fetchSettles 0 0 none, .commits 0]

theorem overlap_rewinds :
    ¬ ∀ (index : PositionIndex) (history : History index) (events : List Event),
      Replayed history (Trace.run (step index history) World.fresh events) := by
  intro replayed
  have owners := (replayed mintIndex mintHistory overlap).owners 2
  have cursor : cursorOf mintIndex (Trace.run (step mintIndex mintHistory) World.fresh overlap).store = 19 := by decide
  have kept : (Trace.run (step mintIndex mintHistory) World.fresh overlap).store.owners.get? 2 = some ⟨2, 161, 20⟩ := by decide
  have none : ownerAfter (mintHistory.upTo 19) 2 = none := by decide
  rw [cursor, kept, none] at owners
  cases owners

end LpTerminal.Catalog.V4Positions
