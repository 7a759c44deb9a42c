import LpTerminal.Monitor.GuardAgreement

/-!
The timers of the state row over a run of polls: the burst wait, and the start of a crossing. Each pass writes the whole
row, so a branch that leaves a timer out ends it.
-/

namespace LpTerminal.Monitor

def positionChanged (config : MonitorConfig) (tokenId liquidity : ℕ) (previous : Option MonitorState) : Bool :=
  previous.any fun row => row.revision = config.revision && row.lastTokenId = some tokenId && row.lastLiquidity.any fun held => held ≠ liquidity

variable {config : MonitorConfig} {snapshot : PositionSnapshot} {now : ℚ} {reads : MonitorReads} {store : MonitorStore}

def sampledStore (snapshot : PositionSnapshot) (now : ℚ) (store : MonitorStore) : MonitorStore :=
  { store with samples := recordPriceSample store.samples now snapshot.tick snapshot.blockNumber }

def readTick (config : MonitorConfig) (snapshot : PositionSnapshot) (now : ℚ) (store : MonitorStore) : Option ℤ :=
  triggerTick config snapshot now (sampledStore snapshot now store).samples

def sideOf (config : MonitorConfig) (snapshot : PositionSnapshot) (now : ℚ) (store : MonitorStore) : Option Side :=
  rangeSide ((readTick config snapshot now store).getD snapshot.tick) snapshot.tickLower snapshot.tickUpper

def seenBy (config : MonitorConfig) (snapshot : PositionSnapshot) (now : ℚ) (store : MonitorStore) : MonitorState :=
  observed config snapshot store.state (sideOf config snapshot now store) (outSince config snapshot now store.state (sideOf config snapshot now store))

def marketOf (config : MonitorConfig) (snapshot : PositionSnapshot) (now : ℚ) (store : MonitorStore) : Option (Gate × MonitorState) :=
  marketGuard config snapshot now (sampledStore snapshot now store).samples store.state (seenBy config snapshot now store)

def ShortAverage (config : MonitorConfig) (snapshot : PositionSnapshot) (now : ℚ) (store : MonitorStore) : Prop :=
  positionChanged config snapshot.tokenId snapshot.liquidity store.state = false ∧ readTick config snapshot now store = none

inductive DropsWait (config : MonitorConfig) (snapshot : PositionSnapshot) (now : ℚ) (reads : MonitorReads) (store : MonitorStore) : Prop
  | average (short : ShortAverage config snapshot now store)
  | history {tick : ℤ} {written : MonitorState} (unchanged : positionChanged config snapshot.tokenId snapshot.liquidity store.state = false)
      (read : readTick config snapshot now store = some tick) (short : marketOf config snapshot now store = some (.history, written))
  | fees {tick : ℤ} {created : Bool} (unchanged : positionChanged config snapshot.tokenId snapshot.liquidity store.state = false)
      (read : readTick config snapshot now store = some tick) (through : marketOf config snapshot now store = none)
      (inRange : sideOf config snapshot now store = none) (due : reads.inRangeJob = some (.fees created))

def burstWait (state : Option MonitorState) : Option ℚ := state.bind MonitorState.burstWaitUntil

def Pass.PlansBoundary (pass : Pass) : Prop := pass.exit = .passed ∧ pass.store.status = .planned

structure Observes (config : MonitorConfig) (snapshot : PositionSnapshot) (now : ℚ) (store : MonitorStore) (row : MonitorState) : Prop where
  unchanged : positionChanged config snapshot.tokenId snapshot.liquidity store.state = false
  revision : row.revision = config.revision
  token : row.lastTokenId = some snapshot.tokenId
  liquidity : row.lastLiquidity = some snapshot.liquidity
  outSide : row.outSide = sideOf config snapshot now store
  outSince : row.outSince = outSince config snapshot now store.state (sideOf config snapshot now store)

inductive Outcome (config : MonitorConfig) (snapshot : PositionSnapshot) (now : ℚ) (reads : MonitorReads) (store : MonitorStore) (pass : Pass) : Prop
  | kept (same : pass.store.state = store.state) (idle : pass.exit = .elsewhere)
      (why : positionChanged config snapshot.tokenId snapshot.liquidity store.state = true ∨ sideOf config snapshot now store = none)
  | wiped (row : MonitorState) (wrote : pass.store.state = some row) (idle : pass.exit ≠ .passed)
      (short : ShortAverage config snapshot now store) (since : row.outSince = none) (wait : row.burstWaitUntil = none)
  | dropped (row : MonitorState) (wrote : pass.store.state = some row) (idle : pass.exit ≠ .passed) (own : Observes config snapshot now store row)
      (taken : DropsWait config snapshot now reads store) (wait : row.burstWaitUntil = none)
  | carried (row : MonitorState) (wrote : pass.store.state = some row) (own : Observes config snapshot now store row)
      (wait : row.burstWaitUntil = burstWait store.state)
      (through : pass.exit = .passed → burstConfigured config.safeguards → (burstWait store.state).getD 0 ≤ now)
  | started (row : MonitorState) (wrote : pass.store.state = some row) (own : Observes config snapshot now store row) (idle : pass.exit ≠ .passed)
      (configured : burstConfigured config.safeguards) (ended : (burstWait store.state).getD 0 ≤ now)

variable {row : MonitorState}

theorem observes_clear (own : Observes config snapshot now store row) : Observes config snapshot now store row.clearEconomics :=
  ⟨own.unchanged, own.revision, own.token, own.liquidity, own.outSide, own.outSince⟩

theorem observes_seen (unchanged : positionChanged config snapshot.tokenId snapshot.liquidity store.state = false) :
    Observes config snapshot now store (seenBy config snapshot now store) :=
  ⟨unchanged, rfl, rfl, rfl, rfl, rfl⟩

theorem marketGuard_timers {samples : PriceSamples} {gate : Gate} {written seen : MonitorState}
    (parked : marketGuard config snapshot now samples store.state seen = some (gate, written)) :
    written.revision = seen.revision ∧ written.lastTokenId = seen.lastTokenId ∧ written.lastLiquidity = seen.lastLiquidity ∧
      written.outSide = seen.outSide ∧ written.outSince = seen.outSince ∧
      (gate = .history ∧ written.burstWaitUntil = seen.burstWaitUntil ∨ written.burstWaitUntil = burstWait store.state) := by
  unfold marketGuard at parked
  dsimp only at parked
  split at parked
  · cases parked
  · split at parked
    · cases parked
    · split at parked
      · cases parked
        exact ⟨rfl, rfl, rfl, rfl, rfl, Or.inl ⟨rfl, rfl⟩⟩
      · split at parked
        · cases parked
          exact ⟨rfl, rfl, rfl, rfl, rfl, Or.inl ⟨rfl, rfl⟩⟩
        · split at parked
          · cases parked
            exact ⟨rfl, rfl, rfl, rfl, rfl, Or.inr rfl⟩
          · split at parked
            · cases parked
            · split at parked
              · cases parked
                exact ⟨rfl, rfl, rfl, rfl, rfl, Or.inr rfl⟩
              · cases parked

variable {state : MonitorState} {action : BoundaryAction} {tick : ℤ}

theorem burstGuard_parks {waits : MonitorState} (parks : burstGuard config now store.cycles store.state state = some waits) :
    waits = state ∨ (burstConfigured config.safeguards ∧ (burstWait store.state).getD 0 ≤ now ∧
      ∃ until', waits = { state with burstWaitUntil := some until', burstResetAt := some until' }) := by
  by_cases configured : burstConfigured config.safeguards
  · obtain ⟨windowMinutes, triggerCount, cooldownMinutes, window, count, cooldown⟩ := burstConfigured_iff.mp configured
    rw [burstGuard_configured window count cooldown] at parks
    split_ifs at parks with waiting starts
    · cases parks
      exact Or.inl rfl
    · cases parks
      exact Or.inr ⟨configured, not_lt.mp waiting, _, rfl⟩
  · rw [burstGuard_unconfigured configured] at parks
    cases parks

theorem planPass_observes {inner : MonitorStore} (own : Observes config snapshot now store state) :
    ∃ row, (planPass config now reads inner action state).store.state = some row ∧ Observes config snapshot now store row ∧
      row.burstWaitUntil = state.burstWaitUntil := by
  unfold planPass
  dsimp only
  split
  · split
    · exact ⟨_, rfl, own, rfl⟩
    · split
      · exact ⟨_, rfl, ⟨own.unchanged, own.revision, own.token, own.liquidity, own.outSide, own.outSince⟩, rfl⟩
      · refine ⟨_, rfl, ?_⟩
        split
        · exact ⟨observes_clear own, rfl⟩
        · exact ⟨own, rfl⟩
  · exact ⟨_, rfl, own, rfl⟩

def boundaryRow (config : MonitorConfig) (snapshot : PositionSnapshot) (now : ℚ) (store : MonitorStore) : MonitorState :=
  { (seenBy config snapshot now store).carryBurst store.state with cooldownUntil := cooldownUntil config store.cycles }

section

variable (unchanged : positionChanged config snapshot.tokenId snapshot.liquidity store.state = false)
include unchanged

theorem observes_boundary :
    Observes config snapshot now store (boundaryRow config snapshot now store) :=
  ⟨unchanged, rfl, rfl, rfl, rfl, rfl⟩

theorem observes_moot {moot : Bool} :
    let row := if moot then (boundaryRow config snapshot now store).clearEconomics else boundaryRow config snapshot now store
    Observes config snapshot now store row ∧ row.burstWaitUntil = burstWait store.state := by
  cases moot
  · exact ⟨observes_boundary unchanged, rfl⟩
  · exact ⟨observes_clear (observes_boundary unchanged), rfl⟩

theorem boundaryPass_outcome
    (read : readTick config snapshot now store = some tick) (through : marketOf config snapshot now store = none) :
    Outcome config snapshot now reads store
      (boundaryPass config snapshot tick now reads (sampledStore snapshot now store) (seenBy config snapshot now store)) := by
  have own := @observes_seen config snapshot now store unchanged
  unfold boundaryPass
  dsimp only
  split
  · rename_i inRange _
    exact .kept rfl rfl (Or.inr inRange)
  · rename_i inRange due
    exact .dropped _ rfl nofun own (.fees unchanged read through inRange due) rfl
  · rename_i inRange _
    exact .kept rfl rfl (Or.inr inRange)
  · split
    · split
      · exact .carried _ rfl (observes_moot unchanged).1 (observes_moot unchanged).2 nofun
      · exact .carried _ rfl (observes_moot unchanged).1 (observes_moot unchanged).2 nofun
    · exact .carried _ rfl (observes_moot unchanged).1 (observes_moot unchanged).2 nofun
    · split
      · rename_i waits parks
        rcases @burstGuard_parks config now (sampledStore snapshot now store) _ _ parks with rfl | ⟨configured, ended, _, rfl⟩
        · exact .carried _ rfl (observes_boundary unchanged) rfl nofun
        · exact .started _ rfl ⟨unchanged, own.revision, own.token, own.liquidity, own.outSide, own.outSince⟩ nofun configured ended
      · rename_i free
        split
        · exact .carried _ rfl (observes_boundary unchanged) rfl nofun
        · obtain ⟨row, wrote, mine, wait⟩ := @planPass_observes config snapshot now reads store _ _ (sampledStore snapshot now store)
            (observes_boundary unchanged)
          exact .carried row wrote mine wait fun _ configured => burstGuard_through free configured

end

theorem monitorPass_outcome : Outcome config snapshot now reads store (monitorPass config snapshot now reads store) := by
  unfold monitorPass
  dsimp only
  split
  · rename_i changed
    exact .kept rfl rfl (Or.inl changed)
  · rename_i unchanged
    have unchanged : positionChanged config snapshot.tokenId snapshot.liquidity store.state = false := Bool.not_eq_true _ ▸ unchanged
    split
    · rename_i short
      exact .wiped _ rfl nofun ⟨unchanged, short⟩ rfl rfl
    · rename_i tick read
      have side : rangeSide tick snapshot.tickLower snapshot.tickUpper = sideOf config snapshot now store := by
        unfold sideOf readTick sampledStore
        dsimp only
        rw [read]
        rfl
      rw [side]
      split
      · rename_i gate written parked
        obtain ⟨revision, token, liquidity, out, since, wait⟩ := marketGuard_timers parked
        have own : Observes config snapshot now store written := ⟨unchanged, revision, token, liquidity, out, since⟩
        rcases wait with ⟨rfl, lost⟩ | kept
        · exact .dropped written rfl nofun own (.history unchanged read parked) lost
        · exact .carried written rfl own kept nofun
      · rename_i through
        exact boundaryPass_outcome unchanged read through

structure Poll where
  now : ℚ
  snapshot : PositionSnapshot
  reads : MonitorReads
  /-- What the rest of the executor has left by now: the samples it took, the completed cycles and the status. -/
  sampled : List PriceSample
  cycles : List CompletedCycleRef
  status : StrategyStatus

structure Turn where
  before : MonitorStore
  poll : Poll

def Turn.pass (config : MonitorConfig) (turn : Turn) : Pass := monitorPass config turn.poll.snapshot turn.poll.now turn.poll.reads turn.before

def Turn.after (config : MonitorConfig) (turn : Turn) : Option MonitorState := (turn.pass config).store.state

def Turn.side (config : MonitorConfig) (turn : Turn) : Option Side := sideOf config turn.poll.snapshot turn.poll.now turn.before

def Poll.found (poll : Poll) (store : MonitorStore) : Turn :=
  ⟨{ store with samples := poll.sampled.foldl Table.put store.samples, cycles := poll.cycles, status := poll.status }, poll⟩

def turns (config : MonitorConfig) (store : MonitorStore) : List Poll → List Turn
  | [] => []
  | poll :: rest => poll.found store :: turns config ((poll.found store).pass config).store rest

def Turn.Sets (config : MonitorConfig) (turn : Turn) (until' : ℚ) : Prop :=
  burstWait turn.before.state ≠ some until' ∧ burstWait (turn.after config) = some until'

def WaitsOut (config : MonitorConfig) (run : List Turn) : Prop :=
  ∀ front setter rest, run = front ++ setter :: rest → ∀ until', setter.Sets config until' →
    ∀ later ∈ rest, later.poll.now < until' → ¬ (later.pass config).PlansBoundary

def ClocksKept (config : MonitorConfig) (run : List Turn) : Prop :=
  ∀ front first rest, run = front ++ first :: rest → ∀ side since, first.side config = some side → (first.after config).bind MonitorState.outSince = some since →
    ∀ later ∈ rest.takeWhile fun turn => turn.side config = some side,
      ∃ start, (later.after config).bind MonitorState.outSince = some start ∧ start ≤ since

/-- No branch that drops the wait while one is active, and no average too short while a crossing goes on. -/
structure Guarded (config : MonitorConfig) (turn : Turn) : Prop where
  wait : ∀ until', burstWait turn.before.state = some until' → turn.poll.now < until' →
    ¬ DropsWait config turn.poll.snapshot turn.poll.now turn.poll.reads turn.before
  clock : ∀ side, turn.before.state.bind MonitorState.outSide = some side → turn.side config = some side →
    ¬ ShortAverage config turn.poll.snapshot turn.poll.now turn.before

variable {turn : Turn} {until' began : ℚ} {side : Side} {tokenId liquidity : ℕ}

theorem turn_outcome : Outcome config turn.poll.snapshot turn.poll.now turn.poll.reads turn.before (turn.pass config) := monitorPass_outcome

theorem Turn.Sets.configured (sets : turn.Sets config until') : burstConfigured config.safeguards := by
  obtain ⟨fresh, set⟩ := sets
  unfold Turn.after burstWait at set
  cases @turn_outcome config turn with
  | kept same _ _ => exact absurd (by rw [same] at set; exact set) fresh
  | wiped row wrote _ _ _ wait => rw [wrote, Option.bind_some, wait] at set; cases set
  | dropped row wrote _ _ _ wait => rw [wrote, Option.bind_some, wait] at set; cases set
  | carried row wrote _ wait _ => exact absurd (by rw [wrote, Option.bind_some, wait] at set; exact set) fresh
  | started _ _ _ _ configured _ => exact configured

theorem Guarded.waits (guarded : Guarded config turn) (configured : burstConfigured config.safeguards)
    (waiting : burstWait turn.before.state = some until') (early : turn.poll.now < until') :
    burstWait (turn.after config) = some until' ∧ ¬ (turn.pass config).PlansBoundary := by
  have kept := guarded.wait until' waiting early
  have open' : ¬ (burstWait turn.before.state).getD 0 ≤ turn.poll.now := by
    rw [waiting]
    exact not_le.mpr early
  unfold Turn.after burstWait Pass.PlansBoundary
  cases @turn_outcome config turn with
  | kept same idle _ =>
    rw [same, idle]
    exact ⟨waiting, fun plans => nomatch plans.1⟩
  | wiped _ _ _ short _ _ => exact absurd (.average short) kept
  | dropped _ _ _ _ taken _ => exact absurd taken kept
  | carried row wrote _ wait through =>
    rw [wrote, Option.bind_some, wait]
    exact ⟨waiting, fun plans => open' (through plans.1 configured)⟩
  | started _ _ _ _ _ ended => exact absurd ended open'

def Crossing (config : MonitorConfig) (tokenId liquidity : ℕ) (side : Side) (began : ℚ) (state : Option MonitorState) : Prop :=
  ∃ row, state = some row ∧ row.outSince = some began ∧
    (positionChanged config tokenId liquidity state = true ∨
      (row.revision = config.revision ∧ row.lastTokenId = some tokenId ∧ row.outSide = some side))

theorem Observes.crossing (own : Observes config snapshot now store row) (out : sideOf config snapshot now store = some side)
    (started : row.outSince = some began) : Crossing config snapshot.tokenId snapshot.liquidity side began (some row) :=
  ⟨row, rfl, started, Or.inr ⟨own.revision, own.token, own.outSide.trans out⟩⟩

theorem Turn.crossing (out : turn.side config = some side) (started : (turn.after config).bind MonitorState.outSince = some began) :
    Crossing config turn.poll.snapshot.tokenId turn.poll.snapshot.liquidity side began (turn.after config) := by
  unfold Turn.after at started ⊢
  cases @turn_outcome config turn with
  | kept same _ why =>
    rw [same] at started ⊢
    obtain ⟨row, held, since'⟩ := Option.bind_eq_some_iff.mp started
    rcases why with changed | inRange
    · exact ⟨row, held, since', Or.inl changed⟩
    · exact absurd (out.symm.trans inRange) nofun
  | wiped row wrote _ _ none' _ =>
    rw [wrote, Option.bind_some, none'] at started
    cases started
  | dropped row wrote _ own _ _ =>
    rw [wrote] at started ⊢
    exact own.crossing out started
  | carried row wrote own _ _ =>
    rw [wrote] at started ⊢
    exact own.crossing out started
  | started row wrote own _ _ _ =>
    rw [wrote] at started ⊢
    exact own.crossing out started

theorem Crossing.passed_on (crossing : Crossing config snapshot.tokenId snapshot.liquidity side began store.state)
    (same : positionChanged config snapshot.tokenId snapshot.liquidity store.state = false) :
    outSince config snapshot now store.state (some side) = some began := by
  obtain ⟨row, held, started, changed | ⟨revision, token, out⟩⟩ := crossing
  · rw [changed] at same
    cases same
  · unfold outSince
    rw [held]
    dsimp only
    rw [if_neg (by simp [revision, token, out]), started]
    rfl

theorem Observes.passes (own : Observes config snapshot now store row) (out : sideOf config snapshot now store = some side)
    (crossing : Crossing config snapshot.tokenId snapshot.liquidity side began store.state) :
    Crossing config snapshot.tokenId snapshot.liquidity side began (some row) := by
  apply own.crossing out
  rw [own.outSince, out]
  exact crossing.passed_on own.unchanged

theorem Guarded.crossing (guarded : Guarded config turn) (out : turn.side config = some side)
    (crossing : Crossing config turn.poll.snapshot.tokenId turn.poll.snapshot.liquidity side began turn.before.state) :
    Crossing config turn.poll.snapshot.tokenId turn.poll.snapshot.liquidity side began (turn.after config) := by
  unfold Turn.after
  cases @turn_outcome config turn with
  | kept same _ _ =>
    rw [same]
    exact crossing
  | wiped _ _ _ short _ _ =>
    obtain ⟨row, held, _, changed | ⟨_, _, on'⟩⟩ := crossing
    · exact absurd (changed.symm.trans short.1) nofun
    · exact absurd short (guarded.clock side (by rw [held]; exact on') out)
  | dropped row wrote _ own _ _ =>
    rw [wrote]
    exact own.passes out crossing
  | carried row wrote own _ _ =>
    rw [wrote]
    exact own.passes out crossing
  | started row wrote own _ _ _ =>
    rw [wrote]
    exact own.passes out crossing

variable {polls : List Poll}

theorem turns_split {front rest : List Turn} (split : turns config store polls = front ++ turn :: rest) :
    ∃ before later, polls = before ++ turn.poll :: later ∧ rest = turns config (turn.pass config).store later := by
  induction front generalizing store polls with
  | nil =>
    cases polls with
    | nil => cases split
    | cons poll later =>
      obtain ⟨rfl, rfl⟩ := List.cons.inj split
      exact ⟨[], later, rfl, rfl⟩
  | cons first front ih =>
    cases polls with
    | nil => cases split
    | cons poll later =>
      obtain ⟨rfl, tail⟩ := List.cons.inj split
      obtain ⟨before, after, rfl, rest⟩ := ih tail
      exact ⟨poll :: before, after, rfl, rest⟩

theorem waits_run (configured : burstConfigured config.safeguards) (ordered : polls.Pairwise fun earlier later => earlier.now ≤ later.now)
    (guarded : ∀ turn ∈ turns config store polls, Guarded config turn) (waiting : burstWait store.state = some until') :
    ∀ turn ∈ turns config store polls, turn.poll.now < until' → ¬ (turn.pass config).PlansBoundary := by
  induction polls generalizing store with
  | nil => exact fun _ member => absurd member List.not_mem_nil
  | cons poll rest ih =>
    obtain ⟨before, ordered⟩ := List.pairwise_cons.mp ordered
    intro turn member early
    have own := guarded _ List.mem_cons_self
    have soon : poll.now < until' := by
      rcases List.mem_cons.mp member with rfl | later
      · exact early
      · obtain ⟨front, tail, split⟩ := List.append_of_mem later
        obtain ⟨_, _, polled, _⟩ := turns_split split
        exact lt_of_le_of_lt (before _ (polled ▸ List.mem_append_right _ List.mem_cons_self)) early
    obtain ⟨kept, idle⟩ := own.waits configured waiting soon
    rcases List.mem_cons.mp member with rfl | later
    · exact idle
    · exact ih ordered (fun turn inside => guarded turn (List.mem_cons_of_mem _ inside)) kept turn later early

theorem crossing_run (fixed : ∀ poll ∈ polls, poll.snapshot.tokenId = tokenId ∧ poll.snapshot.liquidity = liquidity)
    (guarded : ∀ turn ∈ turns config store polls, Guarded config turn) (crossing : Crossing config tokenId liquidity side began store.state) :
    ∀ later ∈ (turns config store polls).takeWhile fun turn => turn.side config = some side,
      (later.after config).bind MonitorState.outSince = some began := by
  induction polls generalizing store with
  | nil => exact fun _ member => absurd member List.not_mem_nil
  | cons poll rest ih =>
    intro later member
    have own := guarded _ List.mem_cons_self
    obtain ⟨rfl, rfl⟩ := fixed poll List.mem_cons_self
    unfold turns at member
    by_cases out : (poll.found store).side config = some side
    · rw [List.takeWhile_cons_of_pos (by simpa using out)] at member
      have next := own.crossing out crossing
      rcases List.mem_cons.mp member with rfl | inside
      · obtain ⟨row, held, started, _⟩ := next
        rw [held]
        exact started
      · exact ih (fun poll later => fixed poll (List.mem_cons_of_mem _ later)) (fun turn inside => guarded turn (List.mem_cons_of_mem _ inside)) next later inside
    · rw [List.takeWhile_cons_of_neg (by simpa using out)] at member
      cases member

/-- In every run of guarded polls the burst waits are waited out and no crossing starts again. -/
theorem timers_kept (config : MonitorConfig) (tokenId liquidity : ℕ) (store : MonitorStore) (polls : List Poll)
    (ordered : polls.Pairwise fun earlier later => earlier.now ≤ later.now)
    (fixed : ∀ poll ∈ polls, poll.snapshot.tokenId = tokenId ∧ poll.snapshot.liquidity = liquidity)
    (guarded : ∀ turn ∈ turns config store polls, Guarded config turn) :
    WaitsOut config (turns config store polls) ∧ ClocksKept config (turns config store polls) := by
  constructor
  · intro front setter rest split until' sets
    obtain ⟨before, later, rfl, rfl⟩ := turns_split split
    apply waits_run sets.configured (List.pairwise_cons.mp (List.pairwise_append.mp ordered).2.1).2 _ sets.2
    intro turn member
    apply guarded turn
    rw [split]
    exact List.mem_append_right _ (List.mem_cons_of_mem _ member)
  · intro front first rest split side began out started later member
    obtain ⟨before, after, rfl, rfl⟩ := turns_split split
    have own := fixed first.poll (List.mem_append_right _ List.mem_cons_self)
    have crossing := Turn.crossing out started
    rw [own.1, own.2] at crossing
    refine ⟨began, crossing_run (fun poll inside => fixed poll (List.mem_append_right _ (List.mem_cons_of_mem _ inside))) (fun turn inside => ?_)
      crossing later member, le_rfl⟩
    apply guarded turn
    rw [split]
    exact List.mem_append_right _ (List.mem_cons_of_mem _ inside)

def burstGuards : Safeguards where
  enabled := true
  minCrossingMinutes := some ⟨10, by norm_num⟩
  minNetAprPct := none
  minCycleFeeCoverage := none
  economicsHoldMinutes := none
  maxRebalancesPerDay := none
  maxConsecutiveLowerBreaks := none
  lowerBreakWindowMinutes := none
  volatilityWindowSeconds := none
  maxVolatilityBps := none
  maxSpotTwapDeviationBps := none
  stableMarketSeconds := none
  burstWindowMinutes := some ⟨1, by norm_num⟩
  burstTriggerCount := some ⟨2, by norm_num⟩
  burstCooldownMinutes := some ⟨10, by norm_num⟩

theorem no_seconds : (0 : ℚ) ≤ 0 ∧ (0 : ℚ) ≤ 3600 := by norm_num

theorem no_minutes : (0 : ℚ) ≤ 0 ∧ (0 : ℚ) ≤ 1440 := by norm_num

def burstConfig (source : TriggerSource) (safeguards : Safeguards) : MonitorConfig where
  revision := 1
  source
  pollSeconds := ⟨60, by norm_num⟩
  confirmationSeconds := ⟨0, no_seconds⟩
  cooldownMinutes := ⟨0, no_minutes⟩
  lower := ⟨.always, .recenter⟩
  upper := ⟨.always, .recenter⟩
  safeguards

def promptConfig : MonitorConfig := burstConfig .spot { burstGuards with minCrossingMinutes := none }

def sampledConfig : MonitorConfig := burstConfig .sampledTwap burstGuards

def freshStore : MonitorStore := ⟨Table.empty, [], none, .monitoring⟩

def pollAt (now : ℚ) (tick : ℤ) (inRangeJob : Option InRangeJob) (cycles : List CompletedCycleRef) : Poll :=
  ⟨now, position tick, ⟨inRangeJob, none, none, true⟩, [], cycles, .monitoring⟩

def feeRun : List Poll :=
  [pollAt 90050 20 none [⟨some .upper, 90000⟩], pollAt 90110 0 (some (.fees true)) [⟨some .upper, 90000⟩],
    pollAt 90200 20 none [⟨some .upper, 90000⟩]]

def gapRun : List Poll :=
  [pollAt 89940 20 none [], pollAt 90000 20 none [], pollAt 90400 20 none [], pollAt 90460 20 none []]

/-- A wait until 90650 is set at 90050, and a plan is created at 90200; a crossing that started at 90000 starts again at 90460. -/
theorem timers_lost :
    (feeRun.Pairwise (fun earlier later => earlier.now ≤ later.now) ∧
      (∀ poll ∈ feeRun, poll.snapshot.tokenId = 5 ∧ poll.snapshot.liquidity = 1000) ∧ ¬ WaitsOut promptConfig (turns promptConfig freshStore feeRun)) ∧
    gapRun.Pairwise (fun earlier later => earlier.now ≤ later.now) ∧
      (∀ poll ∈ gapRun, poll.snapshot.tokenId = 5 ∧ poll.snapshot.liquidity = 1000) ∧ ¬ ClocksKept sampledConfig (turns sampledConfig freshStore gapRun) := by
  refine ⟨⟨by decide, by decide, fun kept => ?_⟩, by decide, by decide, fun kept => ?_⟩
  · have idle := kept [] _ _ rfl 90650 ⟨by decide +kernel, by decide +kernel⟩ _ (List.mem_cons_of_mem _ List.mem_cons_self) (by decide +kernel)
    exact idle ⟨by decide +kernel, by decide +kernel⟩
  · obtain ⟨later, member, again⟩ := List.mem_map.mp (show some 90460 ∈ (((turns sampledConfig freshStore gapRun).drop 2).takeWhile fun turn =>
      turn.side sampledConfig = some .upper).map (fun turn => (turn.after sampledConfig).bind MonitorState.outSince) by decide +kernel)
    obtain ⟨start, read, early⟩ := kept [_] _ ((turns sampledConfig freshStore gapRun).drop 2) rfl .upper 90000 (by decide +kernel) (by decide +kernel)
      later member
    rw [again] at read
    cases read
    exact absurd early (by norm_num)

theorem guarded_spot (spot : config.source = .spot) (unwatched : truthy (config.safeguards.active config.safeguards.volatilityWindowSeconds) = none)
    (idle : turn.poll.reads.inRangeJob = none) : Guarded config turn := by
  have ready : ¬ ShortAverage config turn.poll.snapshot turn.poll.now turn.before := by
    rintro ⟨_, short⟩
    unfold readTick triggerTick at short
    rw [spot] at short
    cases short
  constructor
  · intro until' _ _ drops
    cases drops with
    | average short => exact ready short
    | history _ _ short =>
      unfold marketOf marketGuard at short
      dsimp only at short
      rw [unwatched] at short
      cases short
    | fees _ _ _ _ due => exact absurd (idle.symm.trans due) nofun
  · exact fun _ _ _ => ready

def burstRun : List Poll := [pollAt 90050 20 none [⟨some .upper, 90000⟩], pollAt 90110 20 none [⟨some .upper, 90000⟩]]

theorem timers_kept_burst : WaitsOut promptConfig (turns promptConfig freshStore burstRun) ∧ ClocksKept promptConfig (turns promptConfig freshStore burstRun) :=
  timers_kept promptConfig 5 1000 freshStore burstRun (by decide) (by decide) fun turn member => by
    rcases List.mem_cons.mp member with rfl | later
    · exact guarded_spot rfl rfl rfl
    · rw [List.mem_singleton.mp later]
      exact guarded_spot rfl rfl rfl

end LpTerminal.Monitor
