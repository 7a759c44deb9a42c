import LpTerminal.Catalog.LogScan
import LpTerminal.Lib.Trace

/-!
The windows that a scan commits tile a prefix of its range, whatever its calls do and in whatever order.
-/

namespace LpTerminal.Catalog.LogScan

variable {T : Type*} {options : Options}

def Tiles : ℤ → List Window → ℤ → Prop
  | lo, [], hi => lo = hi
  | lo, window :: rest, hi => window.fromBlock = lo ∧ lo ≤ window.toBlock ∧ Tiles (window.toBlock + 1) rest hi

def Fetched (fetches : List (Fetch T)) (commit : Commit T) : Prop :=
  ∃ call : ℕ, fetches[call]? = some (Fetch.mk commit.window (some (.ok commit.rows)))

def World.Settled (w : World T) : Prop := ∀ call, pending w.fetches call = false

variable {windows : List Window}

theorem tiles_le {lo hi : ℤ} (tiles : Tiles lo windows hi) : lo ≤ hi := by
  induction windows generalizing lo with
  | nil => exact tiles.le
  | cons window rest ih =>
    obtain ⟨-, size, later⟩ := tiles
    have after := ih later
    omega

theorem tiles_append {lo middle hi : ℤ} {windows others : List Window} (first : Tiles lo windows middle) (second : Tiles middle others hi) :
    Tiles lo (windows ++ others) hi := by
  induction windows generalizing lo with
  | nil =>
    obtain rfl := first
    exact second
  | cons window rest ih => exact ⟨first.1, first.2.1, ih first.2.2⟩

theorem windowsFrom_tiles {toBlock lo : ℤ} {windowBlocks : ℕ} (positive : 0 < windowBlocks) (start : lo ≤ toBlock + 1) (count : ℕ) :
    ∃ hi ≤ toBlock + 1, Tiles lo (windowsFrom toBlock windowBlocks count lo) hi := by
  induction count generalizing lo with
  | zero => exact ⟨lo, start, rfl⟩
  | succ count ih =>
    unfold windowsFrom
    split
    · rename_i within
      by_cases more : lo + windowBlocks ≤ toBlock
      · have next : lo + windowBlocks ≤ toBlock + 1 := by omega
        obtain ⟨hi, bound, tiles⟩ := ih next
        refine ⟨hi, bound, rfl, ?_, ?_⟩
        · dsimp only
          omega
        · have ends : min (lo + windowBlocks - 1) toBlock + 1 = lo + windowBlocks := by omega
          rwa [ends]
      · have none : windowsFrom toBlock windowBlocks count (lo + windowBlocks) = [] := by
          cases count with
          | zero => rfl
          | succ count => exact if_neg more
        rw [none]
        refine ⟨min (lo + windowBlocks - 1) toBlock + 1, by omega, rfl, ?_, rfl⟩
        dsimp only
        omega
    · exact ⟨lo, start, rfl⟩

theorem windowsFrom_length (toBlock : ℤ) (windowBlocks count : ℕ) (lo : ℤ) :
    (windowsFrom toBlock windowBlocks count lo).length ≤ count := by
  induction count generalizing lo with
  | zero => simp [windowsFrom]
  | succ count ih =>
    unfold windowsFrom
    split
    · simpa using ih _
    · simp

theorem atLeastOne_pos (value : ℚ) : 0 < atLeastOne value := by
  unfold atLeastOne
  omega

theorem windowsFrom_cons {toBlock lo : ℤ} {windowBlocks count : ℕ} (within : lo ≤ toBlock) (positive : 0 < count) :
    windowsFrom toBlock windowBlocks count lo ≠ [] := by
  obtain ⟨count, rfl⟩ := Nat.exists_eq_succ_of_ne_zero positive.ne'
  simp [windowsFrom, within]

variable {settled : List (Window × Except String T)} {first : ℕ}

section Calls

variable {fetches : List (Fetch T)} {call : ℕ} {outcome : Except String T}

def settle (fetches : List (Fetch T)) (call : ℕ) (outcome : Except String T) : List (Fetch T) :=
  fetches.modify call fun fetch => { fetch with outcome := some outcome }

theorem pending_iff : pending fetches call = true ↔ ∃ window, fetches[call]? = some (Fetch.mk window none) := by
  unfold pending
  cases found : fetches[call]? with
  | none => simp
  | some fetch =>
    obtain ⟨window, outcome⟩ := fetch
    cases outcome <;> simp

theorem pending_settle {other : ℕ} (waits : pending (settle fetches call outcome) other = true) :
    other ≠ call ∧ pending fetches other = true := by
  obtain ⟨window, found⟩ := pending_iff.mp waits
  unfold settle at found
  by_cases same : call = other
  · subst same
    rw [List.getElem?_modify_eq] at found
    obtain ⟨fetch, -, contradictory⟩ := Option.map_eq_some_iff.mp found
    cases contradictory
  · rw [List.getElem?_modify_ne _ _ same] at found
    exact ⟨Ne.symm same, pending_iff.mpr ⟨window, found⟩⟩

theorem fetched_settle {commit : Commit T} (fetched : Fetched fetches commit) (waits : pending fetches call = true) :
    Fetched (settle fetches call outcome) commit := by
  obtain ⟨own, found⟩ := fetched
  refine ⟨own, ?_⟩
  have different : call ≠ own := by
    rintro rfl
    obtain ⟨window, unsettled⟩ := pending_iff.mp waits
    rw [found] at unsettled
    cases unsettled
  rw [settle, List.getElem?_modify_ne _ _ different]
  exact found

theorem countP_settle (waits : pending fetches call = true) :
    (settle fetches call outcome).countP (fun fetch => fetch.outcome.isNone) + 1 = fetches.countP fun fetch => fetch.outcome.isNone := by
  obtain ⟨window, found⟩ := pending_iff.mp waits
  unfold settle
  clear waits
  induction fetches generalizing call with
  | nil => cases found
  | cons fetch rest ih =>
    cases call with
    | zero =>
      obtain rfl := Option.some.inj found
      simp
    | succ call =>
      have later := ih found
      rw [List.modify_succ_cons, List.countP_cons, List.countP_cons]
      omega

theorem countP_settled (none : ∀ call, pending fetches call = false) : fetches.countP (fun fetch => fetch.outcome.isNone) = 0 := by
  rw [List.countP_eq_zero]
  intro fetch inside waits
  obtain ⟨call, found⟩ := List.mem_iff_getElem?.mp inside
  have quiet := none call
  simp only [pending, found, Option.map_some, Option.getD_some] at quiet
  rw [quiet] at waits
  cases waits

theorem allSettled_some
    (all : allSettled fetches first windows = some settled) :
    settled.map Prod.fst = windows ∧ ∀ i entry, settled[i]? = some entry → outcomeOf fetches (first + i) = some entry.2 := by
  induction windows generalizing first settled with
  | nil =>
    obtain rfl := Option.some.inj all
    simp
  | cons window rest ih =>
    simp only [allSettled] at all
    split at all
    · rename_i outcome others own later
      obtain rfl := Option.some.inj all
      obtain ⟨names, outcomes⟩ := ih later
      refine ⟨by simp [names], fun i entry found => ?_⟩
      cases i with
      | zero =>
        obtain rfl := Option.some.inj found
        exact own
      | succ i =>
        have shifted := outcomes i entry found
        rwa [Nat.add_assoc, Nat.add_comm 1 i] at shifted
    · cases all

theorem allSettled_none (waits : allSettled fetches first windows = none) :
    ∃ i < windows.length, outcomeOf fetches (first + i) = none := by
  induction windows generalizing first with
  | nil => cases waits
  | cons window rest ih =>
    simp only [allSettled] at waits
    split at waits
    · cases waits
    · rename_i unsettledOne
      cases own : outcomeOf fetches first with
      | none => exact ⟨0, by simp, own⟩
      | some outcome =>
        have later : allSettled fetches (first + 1) rest = none := by
          cases others : allSettled fetches (first + 1) rest with
          | none => rfl
          | some settled => exact (unsettledOne outcome settled own others).elim
        obtain ⟨i, below, unsettled⟩ := ih later
        refine ⟨i + 1, by simpa using below, ?_⟩
        rwa [Nat.add_assoc, Nat.add_comm 1 i] at unsettled

theorem fulfilled_of_none (none : rejected settled = none) :
    (fulfilled settled).map Commit.window = settled.map Prod.fst ∧
      ∀ commit ∈ fulfilled settled, ∃ i : ℕ, settled[i]? = some (commit.window, .ok commit.rows) := by
  induction settled with
  | nil => simp [fulfilled]
  | cons entry rest ih =>
    obtain ⟨window, outcome⟩ := entry
    cases outcome with
    | error reason => cases none
    | ok rows =>
      obtain ⟨names, outcomes⟩ := ih none
      refine ⟨by simp [fulfilled, names], fun commit inside => ?_⟩
      rcases List.mem_cons.mp inside with rfl | later
      · exact ⟨0, rfl⟩
      · obtain ⟨i, found⟩ := outcomes commit later
        exact ⟨i + 1, found⟩

end Calls

structure Base (options : Options) (w : World T) : Prop where
  positive : 0 < w.windowBlocks
  tiles : Tiles options.fromBlock (w.committed.map Commit.window) w.lo
  bound : w.lo ≤ max options.fromBlock (options.toBlock + 1)
  fetched : ∀ commit ∈ w.commits, Fetched w.fetches commit

structure Awaiting (options : Options) (w : World T) (first : ℕ) (windows : List Window) : Prop where
  tiles : ∃ hi ≤ options.toBlock + 1, Tiles w.lo windows hi
  calls : ∀ i window, windows[i]? = some window → ∃ outcome, w.fetches[first + i]? = some (Fetch.mk window outcome)
  total : first + windows.length = w.fetches.length
  earlier : ∀ call, pending w.fetches call = true → first ≤ call
  waits : allSettled w.fetches first windows = none
  within : w.lo ≤ options.toBlock
  commits : w.commits = w.committed

structure Committing (options : Options) (w : World T) (window : Commit T) (rest : List (Commit T)) : Prop where
  tiles : ∃ hi ≤ options.toBlock + 1, Tiles w.lo ((window :: rest).map Commit.window) hi
  fetched : ∀ commit ∈ rest, Fetched w.fetches commit
  settled : w.Settled
  commits : w.commits = w.committed ++ [window]

def PhaseLaw (options : Options) (w : World T) : Prop :=
  match w.phase with
  | .fetching first windows => Awaiting options w first windows
  | .committing window rest => Committing options w window rest
  | .returned => w.Settled ∧ w.lo = max options.fromBlock (options.toBlock + 1) ∧ w.commits = w.committed
  | .threw _ => w.Settled ∧ (w.commits = w.committed ∨ ∃ window, w.commits = w.committed ++ [window] ∧
      window.window.fromBlock = w.lo ∧ w.lo ≤ window.window.toBlock ∧ window.window.toBlock ≤ options.toBlock)

structure Law (options : Options) (w : World T) : Prop where
  base : Base options w
  phase : PhaseLaw options w

section Parts

variable {w : World T}

theorem batch_pos (options : Options) (probed : Bool) : 0 < (if probed then options.batch else 1) := by
  split
  · exact atLeastOne_pos _
  · exact Nat.one_pos

theorem nextBatch_law (base : Base options w) (settled : w.Settled) (commits : w.commits = w.committed) : Law options (nextBatch options w) := by
  unfold nextBatch
  by_cases within : w.lo ≤ options.toBlock
  · rw [if_pos within]
    set windows := windowsFrom options.toBlock w.windowBlocks (if w.probed then options.batch else 1) w.lo with windowsEq
    constructor
    · refine ⟨base.positive, base.tiles, base.bound, fun commit inside => ?_⟩
      obtain ⟨call, found⟩ := base.fetched commit inside
      have below := (List.getElem?_eq_some_iff.mp found).1
      exact ⟨call, by rw [List.getElem?_append_left below, found]⟩
    · show Awaiting options _ _ _
      constructor
      · have start : w.lo ≤ options.toBlock + 1 := by omega
        exact windowsFrom_tiles base.positive start _
      · intro i window found
        exact ⟨none, by simp [List.getElem?_append_right, found]⟩
      · simp
      · intro call waits
        by_contra early
        have old : pending w.fetches call = true := by
          simpa only [pending, List.getElem?_append_left (not_le.mp early)] using waits
        rw [settled call] at old
        cases old
      · have some : windows ≠ [] := windowsFrom_cons within (batch_pos options w.probed)
        obtain ⟨window, rest, cons⟩ := List.exists_cons_of_ne_nil some
        rw [cons]
        simp [allSettled, outcomeOf]
      · exact within
      · exact commits
  · rw [if_neg within]
    refine ⟨⟨base.positive, base.tiles, base.bound, base.fetched⟩, settled, ?_, commits⟩
    have low := tiles_le base.tiles
    have high := base.bound
    show w.lo = _
    omega

variable {rest : List (Commit T)}

theorem commitNext_law (base : Base options w) (settled : w.Settled) (commits : w.commits = w.committed)
    (tiles : ∃ hi ≤ options.toBlock + 1, Tiles w.lo (rest.map Commit.window) hi) (fetched : ∀ commit ∈ rest, Fetched w.fetches commit) :
    Law options (commitNext options rest w) := by
  cases rest with
  | nil => exact nextBatch_law ⟨base.positive, base.tiles, base.bound, base.fetched⟩ settled commits
  | cons window rest =>
    constructor
    · refine ⟨base.positive, base.tiles, base.bound, fun commit inside => ?_⟩
      rcases List.mem_append.mp inside with old | new
      · exact base.fetched commit old
      · exact fetched commit (List.mem_singleton.mp new ▸ List.mem_cons_self)
    · show Committing options _ _ _
      exact ⟨tiles, fun commit later => fetched commit (List.mem_cons_of_mem window later), settled, congrArg (· ++ [window]) commits⟩

theorem batch_fetched
    (awaiting : ∀ i window, windows[i]? = some window → ∃ outcome, w.fetches[first + i]? = some (Fetch.mk window outcome))
    (all : allSettled w.fetches first windows = some settled) (none : rejected settled = none) :
    (fulfilled settled).map Commit.window = windows ∧ ∀ commit ∈ fulfilled settled, Fetched w.fetches commit := by
  obtain ⟨names, outcomes⟩ := allSettled_some all
  obtain ⟨same, entries⟩ := fulfilled_of_none none
  refine ⟨same.trans names, fun commit inside => ?_⟩
  obtain ⟨i, found⟩ := entries commit inside
  have named : windows[i]? = some commit.window := by
    rw [← names, List.getElem?_map, found]
    rfl
  obtain ⟨outcome, call⟩ := awaiting i commit.window named
  have settledTo := outcomes i _ found
  rw [outcomeOf, call] at settledTo
  exact ⟨first + i, by rw [call]; exact congrArg (fun outcome => some (Fetch.mk commit.window outcome)) settledTo⟩

theorem batch_settled
    (earlier : ∀ call, pending w.fetches call = true → first ≤ call) (total : first + windows.length = w.fetches.length)
    (all : allSettled w.fetches first windows = some settled) : w.Settled := by
  intro call
  cases waits : pending w.fetches call with
  | false => rfl
  | true =>
    obtain ⟨names, outcomes⟩ := allSettled_some all
    obtain ⟨window, found⟩ := pending_iff.mp waits
    obtain ⟨i, rfl⟩ := Nat.exists_eq_add_of_le (earlier call waits)
    have below := (List.getElem?_eq_some_iff.mp found).1
    have length := congrArg List.length names
    rw [List.length_map] at length
    have inside : i < settled.length := by omega
    have settledTo := outcomes i _ (List.getElem?_eq_getElem inside)
    rw [outcomeOf, found] at settledTo
    cases settledTo

theorem start_law (options : Options) : Law options (start options : World T) := by
  unfold start
  have none : ∀ call, pending ([] : List (Fetch T)) call = false := fun call => rfl
  split
  · rename_i empty
    refine ⟨⟨atLeastOne_pos _, rfl, le_max_left _ _, by simp⟩, none, ?_, rfl⟩
    show options.fromBlock = _
    omega
  · exact nextBatch_law ⟨atLeastOne_pos _, rfl, le_max_left _ _, by simp⟩ none rfl

variable {call : ℕ} {outcome : Except String T}

theorem outcomeOf_settle {fetches : List (Fetch T)} {other : ℕ} {window : Window}
    {before : Option (Except String T)} (found : fetches[other]? = some (Fetch.mk window before)) :
    ∃ after, (settle fetches call outcome)[other]? = some (Fetch.mk window after) := by
  by_cases same : call = other
  · subst same
    exact ⟨some outcome, by simp [settle, found]⟩
  · exact ⟨before, by rw [settle, List.getElem?_modify_ne _ _ same, found]⟩

theorem afterBatch_law (base : Base options w)
    (tiles : ∃ hi ≤ options.toBlock + 1, Tiles w.lo windows hi)
    (calls : ∀ i window, windows[i]? = some window → ∃ outcome, w.fetches[first + i]? = some (Fetch.mk window outcome))
    (total : first + windows.length = w.fetches.length) (earlier : ∀ call, pending w.fetches call = true → first ≤ call)
    (commits : w.commits = w.committed) (all : allSettled w.fetches first windows = some settled) :
    Law options (afterBatch options settled w) := by
  have quiet := batch_settled earlier total all
  unfold afterBatch
  split
  · split
    · exact ⟨⟨base.positive, base.tiles, base.bound, base.fetched⟩, quiet, .inl commits⟩
    · split
      · exact ⟨⟨base.positive, base.tiles, base.bound, base.fetched⟩, quiet, .inl commits⟩
      · refine nextBatch_law ⟨?_, base.tiles, base.bound, base.fetched⟩ quiet commits
        show 0 < max 1 (w.windowBlocks / 2)
        omega
  · rename_i none
    obtain ⟨same, fetched⟩ := batch_fetched calls all none
    exact commitNext_law base quiet commits (by rw [same]; exact tiles) fetched

theorem Law.phase_of_pending (law : Law options w) (waits : pending w.fetches call = true) :
    ∃ first windows, w.phase = .fetching first windows := by
  obtain ⟨windowBlocks, lo, probed, phase, fetches, commits, committed⟩ := w
  have settled (quiet : ∀ call, pending fetches call = false) : False := by
    rw [quiet call] at waits
    cases waits
  cases phase with
  | fetching first windows => exact ⟨first, windows, rfl⟩
  | committing window rest =>
    have committing : Committing options _ window rest := law.phase
    exact (settled committing.settled).elim
  | returned => exact (settled law.phase.1).elim
  | threw error => exact (settled law.phase.1).elim

theorem Awaiting.counted (awaiting : Awaiting options w first windows) (call : ℕ) (outcome : Except String T) :
    first + windows.length = (settle w.fetches call outcome).length ∧
      ∀ other, pending (settle w.fetches call outcome) other = true → first ≤ other :=
  ⟨by simpa [settle] using awaiting.total, fun other still => awaiting.earlier other (pending_settle still).2⟩

theorem fetchSettles_law (law : Law options w) (waits : pending w.fetches call = true) :
    Law options (fetchSettles options call outcome w) := by
  have base : Base options { w with fetches := settle w.fetches call outcome } :=
    ⟨law.base.positive, law.base.tiles, law.base.bound, fun commit inside => fetched_settle (law.base.fetched commit inside) waits⟩
  have running := law.phase_of_pending waits
  obtain ⟨windowBlocks, lo, probed, phase, fetches, commits, committed⟩ := w
  obtain ⟨first, windows, rfl⟩ := running
  have awaiting : Awaiting options _ first windows := law.phase
  have calls : ∀ i window, windows[i]? = some window →
      ∃ after, (settle fetches call outcome)[first + i]? = some (Fetch.mk window after) := by
    intro i window found
    obtain ⟨before, known⟩ := awaiting.calls i window found
    exact outcomeOf_settle known
  obtain ⟨total, earlier⟩ := awaiting.counted call outcome
  simp only [fetchSettles]
  rw [← settle]
  split
  · rename_i settled all
    exact afterBatch_law base awaiting.tiles calls total earlier awaiting.commits all
  · rename_i unsettled
    exact ⟨base, awaiting.tiles, calls, total, earlier, unsettled, awaiting.within, awaiting.commits⟩

variable {window : Commit T}

theorem commitSettles_law (law : Law options w) (own : w.phase = .committing window rest) :
    Law options (commitNext options rest { w with lo := window.window.toBlock + 1, committed := w.committed ++ [window] }) := by
  have phase := law.phase
  unfold PhaseLaw at phase
  rw [own] at phase
  obtain ⟨hi, bound, starts, size, later⟩ := phase.tiles
  have ends := tiles_le later
  refine commitNext_law ?_ phase.settled phase.commits ⟨hi, bound, later⟩ phase.fetched
  refine ⟨law.base.positive, ?_, ?_, law.base.fetched⟩
  · show Tiles options.fromBlock ((w.committed ++ [window]).map Commit.window) _
    rw [List.map_append]
    exact tiles_append law.base.tiles ⟨starts, size, rfl⟩
  · show window.window.toBlock + 1 ≤ _
    omega

theorem step_law (law : Law options w) (event : Event T) : Law options (step options w event) := by
  cases event with
  | fetchSettles call outcome =>
    simp only [step]
    split
    · rename_i waits
      exact fetchSettles_law law waits
    · exact law
  | commitSettles outcome =>
    simp only [step]
    split
    · rename_i window rest own
      exact commitSettles_law law own
    · rename_i window rest reason own
      have phase := law.phase
      unfold PhaseLaw at phase
      rw [own] at phase
      obtain ⟨hi, bound, starts, size, later⟩ := phase.tiles
      have ends := tiles_le later
      exact ⟨⟨law.base.positive, law.base.tiles, law.base.bound, law.base.fetched⟩,
        phase.settled, .inr ⟨window, phase.commits, starts, size, by omega⟩⟩
    · exact law

theorem worldAt_law (options : Options) (schedule : ℕ → Event T) (n : ℕ) : Law options (worldAt options schedule n) := by
  induction n with
  | zero => exact start_law options
  | succ n ih => exact step_law ih (schedule n)

variable {fetch : Fetch T}

theorem mem_nextBatch (inside : fetch ∈ (nextBatch options w).fetches) : fetch ∈ w.fetches ∨ fetch.outcome = none := by
  unfold nextBatch at inside
  split at inside
  · rcases List.mem_append.mp inside with old | new
    · exact .inl old
    · obtain ⟨window, -, rfl⟩ := List.mem_map.mp new
      exact .inr rfl
  · exact .inl inside

theorem mem_commitNext (inside : fetch ∈ (commitNext options rest w).fetches) :
    fetch ∈ w.fetches ∨ fetch.outcome = none := by
  cases rest with
  | nil =>
    have added := mem_nextBatch inside
    exact added
  | cons window rest => exact .inl inside

theorem mem_afterBatch
    (inside : fetch ∈ (afterBatch options settled w).fetches) : fetch ∈ w.fetches ∨ fetch.outcome = none := by
  unfold afterBatch at inside
  split at inside
  · split at inside
    · exact .inl inside
    · split at inside
      · exact .inl inside
      · have added := mem_nextBatch inside
        exact added
  · exact mem_commitNext inside

theorem mem_settle {fetches : List (Fetch T)} (inside : fetch ∈ settle fetches call outcome) :
    fetch ∈ fetches ∨ ∃ before, fetches[call]? = some before ∧ fetch = { before with outcome := some outcome } := by
  obtain ⟨other, found⟩ := List.mem_iff_getElem?.mp inside
  by_cases same : call = other
  · subst same
    rw [settle, List.getElem?_modify_eq] at found
    obtain ⟨before, old, rfl⟩ := Option.map_eq_some_iff.mp found
    exact .inr ⟨before, old, rfl⟩
  · rw [settle, List.getElem?_modify_ne _ _ same] at found
    exact .inl (List.mem_of_getElem? found)

theorem mem_step {event : Event T} (inside : fetch ∈ (step options w event).fetches) :
    fetch ∈ w.fetches ∨ fetch.outcome = none ∨ ∃ call outcome before, event = .fetchSettles call outcome ∧
      w.fetches[call]? = some before ∧ fetch = { before with outcome := some outcome } := by
  cases event with
  | fetchSettles call outcome =>
    have settles (inside : fetch ∈ settle w.fetches call outcome) : fetch ∈ w.fetches ∨ fetch.outcome = none ∨
        ∃ other result before, Event.fetchSettles call outcome = .fetchSettles other result ∧ w.fetches[other]? = some before ∧
          fetch = { before with outcome := some result } := by
      rcases mem_settle inside with old | ⟨before, found, same⟩
      · exact .inl old
      · exact .inr (.inr ⟨call, outcome, before, rfl, found, same⟩)
    simp only [step] at inside
    split at inside
    · simp only [fetchSettles] at inside
      split at inside
      · split at inside
        · rcases mem_afterBatch inside with old | unsettled
          · exact settles old
          · exact .inr (.inl unsettled)
        · exact settles inside
      · exact settles inside
    · exact .inl inside
  | commitSettles outcome =>
    simp only [step] at inside
    split at inside
    · have added := mem_commitNext inside
      exact added.imp id .inl
    · exact .inl inside
    · exact .inl inside

theorem nextBatch_lo : (nextBatch options w).lo = w.lo := by
  unfold nextBatch
  split <;> rfl

theorem commitNext_lo : (commitNext options rest w).lo = w.lo := by
  cases rest with
  | nil => exact nextBatch_lo
  | cons window rest => rfl

theorem fetchSettles_lo : (step options w (.fetchSettles call outcome)).lo = w.lo := by
  simp only [step]
  split
  · simp only [fetchSettles]
    split
    · split
      · unfold afterBatch
        split
        · split
          · rfl
          · split
            · rfl
            · exact nextBatch_lo
        · exact commitNext_lo
      · rfl
    · rfl
  · rfl

theorem commitSettles_lo (own : w.phase = .committing window rest) :
    (step options w (.commitSettles (.ok ()))).lo = window.window.toBlock + 1 := by
  simp only [step, own]
  exact commitNext_lo

theorem start_lo (options : Options) : (start options : World T).lo = options.fromBlock := by
  unfold start
  split
  · rfl
  · exact nextBatch_lo

def rounds (options : Options) (w : World T) : ℕ := (options.toBlock + 1 - w.lo).toNat + w.windowBlocks

def openCalls (fetches : List (Fetch T)) : ℕ := fetches.countP fun fetch => fetch.outcome.isNone

def left (options : Options) (w : World T) : ℕ :=
  match w.phase with
  | .fetching _ _ => rounds options w * (options.batch + 2) + openCalls w.fetches + 1
  | .committing _ _ => rounds options w * (options.batch + 2)
  | _ => 0

theorem nextBatch_left (options : Options) (settled : w.Settled) : left options (nextBatch options w) ≤ rounds options w * (options.batch + 2) + options.batch + 1 := by
  unfold nextBatch
  split
  · have positive : 0 < options.batch := atLeastOne_pos _
    have length := windowsFrom_length options.toBlock w.windowBlocks (if w.probed then options.batch else 1) w.lo
    have count : (if w.probed then options.batch else 1) ≤ options.batch := by
      split <;> omega
    have quiet := countP_settled settled
    simp only [left, rounds, openCalls, List.countP_append, List.countP_map, quiet, Function.comp_def, Option.isNone_none,
      List.countP_true]
    omega
  · exact Nat.zero_le _

theorem commitNext_left (options : Options) (settled : w.Settled) (rest : List (Commit T)) :
    left options (commitNext options rest w) ≤ rounds options w * (options.batch + 2) + options.batch + 1 := by
  cases rest with
  | nil => exact nextBatch_left options settled
  | cons window rest =>
    show rounds options w * (options.batch + 2) ≤ _
    omega

theorem afterBatch_left (options : Options) {entries : List (Window × Except String T)} (positive : 0 < w.windowBlocks) (settled : w.Settled)
    (some : entries ≠ []) : left options (afterBatch options entries w) ≤ rounds options w * (options.batch + 2) := by
  unfold afterBatch
  split
  · split
    · exact Nat.zero_le _
    · split
      · exact Nat.zero_le _
      · rename_i wide
        have next := nextBatch_left options (w := { w with windowBlocks := max 1 (w.windowBlocks / 2), probed := false }) settled
        have fewer : (rounds options { w with windowBlocks := max 1 (w.windowBlocks / 2), probed := false } + 1) * (options.batch + 2) ≤
            rounds options w * (options.batch + 2) := by
          refine Nat.mul_le_mul_right _ ?_
          simp only [rounds]
          omega
        rw [Nat.add_mul] at fewer
        omega
  · rename_i none
    obtain ⟨names, -⟩ := fulfilled_of_none none
    cases own : fulfilled entries with
    | nil =>
      rw [own] at names
      exact absurd (List.map_eq_nil_iff.mp names.symm) some
    | cons window rest => exact Nat.le_refl _

theorem fetchSettles_left (law : Law options w) (waits : pending w.fetches call = true) :
    left options (fetchSettles options call outcome w) < left options w := by
  have running := law.phase_of_pending waits
  obtain ⟨windowBlocks, lo, probed, phase, fetches, commits, committed⟩ := w
  obtain ⟨first, windows, rfl⟩ := running
  have awaiting : Awaiting options _ first windows := law.phase
  have fewer : openCalls (settle fetches call outcome) + 1 = openCalls fetches := countP_settle waits
  simp only [fetchSettles]
  rw [← settle]
  split
  · rename_i settled all
    obtain ⟨total, earlier⟩ := awaiting.counted call outcome
    have some : settled ≠ [] := by
      rintro rfl
      have empty := (allSettled_some all).1
      have unsettled := awaiting.waits
      rw [← empty] at unsettled
      cases unsettled
    have quiet := batch_settled (w := ⟨windowBlocks, lo, probed, .fetching first windows, settle fetches call outcome, commits, committed⟩)
      earlier total all
    have positive : 0 < windowBlocks := law.base.positive
    refine Nat.lt_of_le_of_lt (afterBatch_left options positive quiet some) ?_
    simp only [left, rounds]
    omega
  · simp only [left, rounds]
    omega

theorem commitSettles_left (law : Law options w) (own : w.phase = .committing window rest)
    (outcome : Except String Unit) : left options (step options w (.commitSettles outcome)) < left options w := by
  have phase := law.phase
  unfold PhaseLaw at phase
  rw [own] at phase
  obtain ⟨hi, bound, starts, size, later⟩ := phase.tiles
  have ends := tiles_le later
  have now : left options w = rounds options w * (options.batch + 2) := by
    simp only [left, own]
  have positive := law.base.positive
  cases outcome with
  | error reason =>
    rw [now]
    simp only [step, own, left, rounds]
    exact Nat.mul_pos (by omega) (by omega)
  | ok done =>
    have next := commitNext_left options
      (w := { w with lo := window.window.toBlock + 1, committed := w.committed ++ [window] }) phase.settled rest
    have fewer : (rounds options { w with lo := window.window.toBlock + 1, committed := w.committed ++ [window] } + 1) *
        (options.batch + 2) ≤ rounds options w * (options.batch + 2) := by
      refine Nat.mul_le_mul_right _ ?_
      simp only [rounds]
      omega
    have state : step options w (.commitSettles (.ok done)) =
        commitNext options rest { w with lo := window.window.toBlock + 1, committed := w.committed ++ [window] } := by
      simp only [step, own]
    rw [Nat.add_mul] at fewer
    rw [state]
    omega

theorem step_left (law : Law options w) (event : Event T) : left options (step options w event) < left options w ∨ w = step options w event := by
  cases event with
  | fetchSettles call outcome =>
    simp only [step]
    split
    · rename_i waits
      exact .inl (fetchSettles_left law waits)
    · exact .inr rfl
  | commitSettles outcome =>
    cases own : w.phase with
    | committing window rest => exact .inl (commitSettles_left law own outcome)
    | fetching first windows => simp [step, own]
    | returned => simp [step, own]
    | threw error => simp [step, own]

def World.Ended (w : World T) : Prop := w.phase = .returned ∨ ∃ error, w.phase = .threw error

instance (w : World T) : Decidable w.Ended :=
  match own : w.phase with
  | .returned => .isTrue (.inl own)
  | .threw error => .isTrue (.inr ⟨error, own⟩)
  | .fetching _ _ => .isFalse (by rintro (same | ⟨_, same⟩) <;> rw [own] at same <;> cases same)
  | .committing _ _ => .isFalse (by rintro (same | ⟨_, same⟩) <;> rw [own] at same <;> cases same)

def CallsEnd (options : Options) (schedule : ℕ → Event T) : Prop :=
  ∀ n,
    (∀ call, pending (worldAt options schedule n).fetches call = true → ∃ m ≥ n, ∃ outcome, schedule m = .fetchSettles call outcome) ∧
    ∀ window rest, (worldAt options schedule n).phase = .committing window rest → ∃ m ≥ n, ∃ outcome, schedule m = .commitSettles outcome

theorem ends (schedule : ℕ → Event T) (callsEnd : CallsEnd options schedule) : ∃ n, (worldAt options schedule n).Ended := by
  have fair : ∀ n ≥ 0, ¬ (worldAt options schedule n).Ended → ∃ m ≥ n, worldAt options schedule n = worldAt options schedule m →
      left options (worldAt options schedule (m + 1)) < left options (worldAt options schedule m) := by
    intro n _ running
    have law := worldAt_law options schedule n
    have phase := law.phase
    unfold PhaseLaw at phase
    cases own : (worldAt options schedule n).phase with
    | fetching first windows =>
      rw [own] at phase
      obtain ⟨i, below, unsettled⟩ := allSettled_none phase.waits
      obtain ⟨outcome, found⟩ := phase.calls i _ (List.getElem?_eq_getElem below)
      rw [outcomeOf, found] at unsettled
      obtain rfl : outcome = none := unsettled
      have waits : pending (worldAt options schedule n).fetches (first + i) = true := pending_iff.mpr ⟨_, found⟩
      obtain ⟨m, later, outcome, settles⟩ := (callsEnd n).1 _ waits
      refine ⟨m, later, fun same => ?_⟩
      show left options (step options (worldAt options schedule m) (schedule m)) < _
      rw [settles, ← same]
      simp only [step, waits, if_true]
      exact fetchSettles_left law waits
    | committing window rest =>
      obtain ⟨m, later, outcome, settles⟩ := (callsEnd n).2 window rest own
      refine ⟨m, later, fun same => ?_⟩
      show left options (step options (worldAt options schedule m) (schedule m)) < _
      rw [settles, ← same]
      exact commitSettles_left law own outcome
    | returned => exact (running (.inl own)).elim
    | threw error => exact (running (.inr ⟨error, own⟩)).elim
  obtain ⟨n, -, ended⟩ := Progress.reaches (fun _ => rfl) (fun _ _ _ => Eq.trans) (fun _ _ same => congrArg (left options) same)
    (fun n _ => step_left (worldAt_law options schedule n) (schedule n)) fair 0 (Nat.le_refl 0)
  exact ⟨n, ended⟩

end Parts

/-- What has been committed: windows that tile a prefix of the range, all of it once the scan has returned, each with the rows
that a call with its bounds fetched. A failed commit is the last call of `commitWindow`. -/
structure TilesPrefix (options : Options) (w : World T) : Prop where
  committed : ∃ hi ≤ max options.fromBlock (options.toBlock + 1), Tiles options.fromBlock (w.committed.map Commit.window) hi
  commits : ∃ hi ≤ max options.fromBlock (options.toBlock + 1), Tiles options.fromBlock (w.commits.map Commit.window) hi
  order : w.commits = w.committed ∨ ∃ window, w.commits = w.committed ++ [window]
  whole : w.phase = .returned → w.commits = w.committed ∧
    Tiles options.fromBlock (w.committed.map Commit.window) (max options.fromBlock (options.toBlock + 1))
  fetched : ∀ commit ∈ w.commits, Fetched w.fetches commit

theorem Law.tilesPrefix {w : World T} (law : Law options w) : TilesPrefix options w := by
  have phase := law.phase
  unfold PhaseLaw at phase
  have tiles := law.base.tiles
  have same (all : w.commits = w.committed) :
      ∃ hi ≤ max options.fromBlock (options.toBlock + 1), Tiles options.fromBlock (w.commits.map Commit.window) hi :=
    ⟨w.lo, law.base.bound, by rw [all]; exact tiles⟩
  have more {window : Commit T} (all : w.commits = w.committed ++ [window]) (starts : window.window.fromBlock = w.lo)
      (size : w.lo ≤ window.window.toBlock) (ends : window.window.toBlock ≤ options.toBlock) :
      ∃ hi ≤ max options.fromBlock (options.toBlock + 1), Tiles options.fromBlock (w.commits.map Commit.window) hi := by
    refine ⟨window.window.toBlock + 1, by omega, ?_⟩
    rw [all, List.map_append]
    exact tiles_append tiles ⟨starts, size, rfl⟩
  cases own : w.phase with
  | fetching first windows =>
    rw [own] at phase
    exact ⟨⟨w.lo, law.base.bound, tiles⟩, same phase.commits, .inl phase.commits, by simp [own], law.base.fetched⟩
  | committing window rest =>
    rw [own] at phase
    obtain ⟨hi, bound, starts, size, later⟩ := phase.tiles
    have ends := tiles_le later
    exact ⟨⟨w.lo, law.base.bound, tiles⟩, more phase.commits starts size (by omega), .inr ⟨window, phase.commits⟩, by simp [own],
      law.base.fetched⟩
  | returned =>
    rw [own] at phase
    obtain ⟨-, done, all⟩ := phase
    exact ⟨⟨w.lo, law.base.bound, tiles⟩, same all, .inl all, fun _ => ⟨all, done ▸ tiles⟩, law.base.fetched⟩
  | threw error =>
    rw [own] at phase
    obtain ⟨-, all | ⟨window, all, starts, size, ends⟩⟩ := phase
    · exact ⟨⟨w.lo, law.base.bound, tiles⟩, same all, .inl all, by simp [own], law.base.fetched⟩
    · exact ⟨⟨w.lo, law.base.bound, tiles⟩, more all starts size ends, .inr ⟨window, all⟩, by simp [own], law.base.fetched⟩

/-- Whatever the calls do and in whatever order, the scan ends if they do, and at any time its commits tile a prefix. -/
theorem scan_tiles (options : Options) (schedule : ℕ → Event T) :
    (∀ n, TilesPrefix options (worldAt options schedule n)) ∧
      (CallsEnd options schedule → ∃ n, (worldAt options schedule n).Ended) :=
  ⟨fun n => (worldAt_law options schedule n).tilesPrefix, ends schedule⟩

end LpTerminal.Catalog.LogScan
