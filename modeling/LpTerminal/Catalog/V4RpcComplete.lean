import LpTerminal.Catalog.V4RpcRuns

/-!
The generations of the directory, and what holds of it once no proven token waits for its scan.
-/

namespace LpTerminal.Catalog.V4Rpc

variable {config : Config} {chain : Chain} {store store' : Store} {w w' : World} {s : Step}

/-- What a step can do to the published generation, the proven tokens and those that wait. -/
inductive Moves (config : Config) (w w' : World) : Prop
  | quiet (generation : w'.store.generation = w.store.generation) (counted : provenCount w'.store = provenCount w.store)
      (waiting : (pending w').Perm (pending w))
  | published (generation : w'.store.generation = some (generationOf config (provenCount w'.store)))
      (counted : provenCount w'.store = provenCount w.store) (settled : pending w' = [])
  | proved (generation : w'.store.generation = w.store.generation) (counted : provenCount w'.store = provenCount w.store + 1)
      (settled : pending w = []) (one : (pending w').length = 1)

theorem Moves.refl (config : Config) (w : World) : Moves config w w := .quiet rfl rfl (List.Perm.refl _)

def Still (store store' : Store) : Prop := store'.generation = store.generation ∧ store'.stockTokens = store.stockTokens

theorem Still.moves {tail : Tail} (still : Still w.store store') : Moves config w { w with store := store', tail := tail } := by
  refine .quiet still.1 ?_ (List.Perm.refl _)
  unfold provenCount
  dsimp only
  rw [still.2]

theorem Grew.still (grew : Grew store store') : Still store store' := by
  obtain ⟨db, rfl, _⟩ := grew
  exact ⟨rfl, rfl⟩

theorem launchpadWindow_moves {hi : Nat} : Moves config w (launchpadWindow chain hi w) := by
  unfold launchpadWindow
  split
  · split
    · split
      · rename_i store ran
        obtain ⟨tokens, rfl, _⟩ := storeLaunches_ok ran
        exact Still.moves ⟨rfl, rfl⟩
      · exact Still.moves ⟨rfl, rfl⟩
    · exact Moves.refl config w
  · exact Moves.refl config w

theorem readCursor_moves : Moves config w (readCursor config w) := by
  unfold readCursor
  split
  · dsimp only
    split
    · split <;> exact Still.moves ⟨rfl, rfl⟩
    · exact Moves.refl config w
  · exact Moves.refl config w

theorem tailWindow_moves (sound : Sound config chain w) {hi : Nat} : Moves config w (tailWindow config chain hi w) := by
  unfold tailWindow
  split
  · split
    · split
      · rename_i store ran
        have still := (storeWindow_ok sound.fromChain (fun log inside => (mem_initializeLogs.mp inside).1) ran).grew.still
        exact Still.moves still
      · exact Still.moves ⟨rfl, rfl⟩
    · exact Moves.refl config w
  · exact Moves.refl config w

theorem repairWindow_moves (sound : Sound config chain w) {hi : Nat} : Moves config w (repairWindow config chain hi w) := by
  unfold repairWindow
  split
  · split
    · split
      · rename_i store next ran
        exact Still.moves (window_ok sound.fromChain ran).1.grew.still
      · exact Still.moves ⟨rfl, rfl⟩
    · exact Moves.refl config w
  · exact Moves.refl config w

theorem repairDone_moves (settled : pending w = []) : Moves config w (repairDone config w) := by
  unfold repairDone
  split
  · exact .published rfl rfl settled
  · exact Moves.refl config w

theorem tailDone_moves (settled : pending w = []) : Moves config w (tailDone config w) := by
  unfold tailDone
  split
  · split
    · exact .published rfl rfl settled
    · exact Moves.refl config w
  · exact Moves.refl config w

variable {before after : List Sweep}

theorem pending_split {sweep : Sweep} {tail : Tail} :
    pending ⟨store, tail, before ++ sweep :: after⟩ = before.flatMap Sweep.pending ++ (sweep.pending ++ after.flatMap Sweep.pending) := by
  unfold pending
  rw [List.flatMap_append, List.flatMap_cons]

theorem pending_at {sweep : Sweep} (split : w.sweeps = before ++ sweep :: after) :
    pending w = before.flatMap Sweep.pending ++ (sweep.pending ++ after.flatMap Sweep.pending) := by
  rw [← @pending_split w.store before after sweep w.tail, ← split]

theorem settled_at {sweep : Sweep} (split : w.sweeps = before ++ sweep :: after) (settled : pending w = []) :
    before.flatMap Sweep.pending = [] ∧ sweep.pending = [] ∧ after.flatMap Sweep.pending = [] := by
  rwa [pending_at split, List.append_eq_nil_iff, List.append_eq_nil_iff] at settled

theorem sweep_moves {sweep sweep' : Sweep} (split : w.sweeps = before ++ sweep :: after)
    (still : Still w.store store') (waiting : sweep'.pending.Perm sweep.pending) :
    Moves config w { w with store := store', sweeps := before ++ sweep' :: after } := by
  refine .quiet still.1 ?_ ?_
  · unfold provenCount
    dsimp only
    rw [still.2]
  · rw [pending_at split, pending_split]
    exact (waiting.append_right _).append_left _

theorem provenCount_record {address : Address} {issuer : Option Address} (unmeasured : stockTokenMeasured store address = false) :
    provenCount (recordStockToken address issuer store) = provenCount store + if issuer.isSome then 1 else 0 := by
  have missing : store.stockTokens.get? (⟨address, issuer⟩ : StockToken).address = none := by
    unfold stockTokenMeasured at unmeasured
    exact Option.not_isSome_iff_eq_none.mp (by rw [unmeasured]; exact Bool.false_ne_true)
  unfold provenCount recordStockToken
  dsimp only
  rw [(Table.put_perm_new missing).countP_eq, List.countP_cons]

theorem answer_moves {i : Nat} {address : Address} {issuer : Option Address} (unmeasured : stockTokenMeasured w.store address = false)
    (alone : issuer.isSome = true → pending w = []) : Moves config w (inSweep i (answer address issuer) w) := by
  rcases inSweep_cases i (answer address issuer) w with same | ⟨before, sweep, after, split, _, result⟩
  · rw [same]
    exact Moves.refl config w
  rw [result]
  unfold answer
  split
  · have counted := @provenCount_record w.store address issuer unmeasured
    cases issued : issuer.isSome with
    | true =>
      obtain ⟨early, mine, late⟩ := settled_at split (alone issued)
      rw [issued] at counted
      refine .proved rfl counted (alone issued) ?_
      rw [pending_split, early, late]
      unfold Sweep.pending at mine ⊢
      rw [List.append_eq_nil_iff] at mine
      simp [mine.1, mine.2]
    | false =>
      rw [issued] at counted
      refine .quiet rfl counted ?_
      rw [pending_at split, pending_split]
      exact List.Perm.refl _
  · exact sweep_moves split ⟨rfl, rfl⟩ (List.Perm.refl _)

theorem admit_moves {i head : Nat} : Moves config w (inSweep i (admitV4Token config head) w) := by
  rcases inSweep_cases i (admitV4Token config head) w with same | ⟨before, sweep, after, split, _, result⟩
  · rw [same]
    exact Moves.refl config w
  rw [result]
  unfold admitV4Token
  split
  · rename_i token rest asked idle admitted
    refine sweep_moves split ⟨rfl, rfl⟩ ?_
    unfold Sweep.pending
    rw [admitted, idle]
    simp only [Option.map_some, Option.map_none, Option.toList_some, Option.toList_none, List.append_nil]
    unfold TokenScan.start
    rw [TokenScan.settle_token]
    exact List.perm_append_singleton token rest
  · exact sweep_moves split ⟨rfl, rfl⟩ (List.Perm.refl _)

theorem scanWindow_moves (sound : Sound config chain w) {i hi : Nat} (orderly : Orderly config chain w (.scanWindow i hi)) :
    Moves config w (inSweep i (scanWindow config chain hi) w) := by
  rcases inSweep_cases i (scanWindow config chain hi) w with same | ⟨before, sweep, after, split, _, result⟩
  · rw [same]
    exact Moves.refl config w
  rw [result]
  have member : sweep ∈ w.sweeps := by rw [split]; simp
  unfold scanWindow
  split
  · exact sweep_moves split ⟨rfl, rfl⟩ (List.Perm.refl _)
  · rename_i scan running
    split
    · split
      · rename_i store next told
        obtain ⟨window, rfl⟩ := window_ok sound.fromChain told
        refine sweep_moves split window.grew.still ?_
        unfold Sweep.pending
        rw [running, Option.map_some, Option.map_some, TokenScan.settle_token]
      · rename_i e threw
        obtain ⟨done, told⟩ := @window_total config chain w.store scan hi sound.fromChain (sound.scans sweep member scan running)
          (orderly sweep member scan running)
        rw [told] at threw
        cases threw
    · exact sweep_moves split ⟨rfl, rfl⟩ (List.Perm.refl _)

theorem scanDone_moves {i : Nat} (one : (pending w).length ≤ 1) : Moves config w (inSweep i (scanDone config) w) := by
  rcases inSweep_cases i (scanDone config) w with same | ⟨before, sweep, after, split, _, result⟩
  · rw [same]
    exact Moves.refl config w
  rw [result]
  unfold scanDone
  split
  · exact sweep_moves split ⟨rfl, rfl⟩ (List.Perm.refl _)
  · rename_i scan running
    split
    · -- The token of this scan was the only one that waited.
      refine .published rfl rfl ?_
      rw [pending_at split] at one
      rw [pending_split]
      unfold Sweep.pending at one ⊢
      rw [running] at one
      simp only [List.length_append, Option.map_some, Option.toList_some, List.length_singleton] at one
      refine List.length_eq_zero_iff.mp ?_
      simp only [List.length_append, Option.map_none, Option.toList_none, List.length_nil]
      omega
    · exact sweep_moves split ⟨rfl, rfl⟩ (List.Perm.refl _)

theorem step_moves (sound : Sound config chain w) (one : (pending w).length ≤ 1) (orderly : Orderly config chain w s) :
    Moves config w (step config chain w s) := by
  cases s with
  | tailStart head =>
    unfold step syncLaunchpadTokens
    dsimp only
    split
    · exact Still.moves ⟨rfl, rfl⟩
    · exact Moves.refl config w
  | launchpadWindow hi => exact launchpadWindow_moves
  | tailCursor => exact readCursor_moves
  | tailWindow hi => exact tailWindow_moves sound
  | repairWindow hi => exact repairWindow_moves sound
  | repairDone => exact repairDone_moves orderly
  | tailDone => exact tailDone_moves orderly
  | tailFail => exact Still.moves ⟨rfl, rfl⟩
  | sweepStart deep limit =>
    refine .quiet rfl rfl ?_
    unfold pending step sweepStart
    dsimp only
    rw [List.flatMap_append]
    simp [Sweep.pending]
  | answer i address issuer => exact answer_moves orderly.1 orderly.2
  | unread i address =>
    rcases inSweep_cases i (unread address) w with same | ⟨before, sweep, after, split, _, result⟩
    · unfold step
      dsimp only
      rw [same]
      exact Moves.refl config w
    · unfold step
      dsimp only
      rw [result]
      exact sweep_moves split ⟨rfl, rfl⟩ (List.Perm.refl _)
  | scanStart i head => exact admit_moves
  | scanWindow i hi => exact scanWindow_moves sound orderly
  | scanDone i => exact scanDone_moves one
  | scanFail i =>
    have quiet : pending w = [] := orderly
    rcases inSweep_cases i scanFail w with same | ⟨before, sweep, after, split, _, result⟩
    · unfold step
      dsimp only
      rw [same]
      exact Moves.refl config w
    · unfold step
      dsimp only
      rw [result]
      have mine := (settled_at split quiet).2.1
      refine sweep_moves split ⟨rfl, rfl⟩ ?_
      unfold Sweep.pending at mine ⊢
      rw [List.append_eq_nil_iff] at mine
      simp [scanFail, mine.1, mine.2]
  | crash =>
    have quiet : pending w = [] := orderly
    refine .quiet rfl rfl ?_
    rw [quiet]
    exact List.Perm.refl _

def Older (config : Config) (w : World) (generation : Digest) : Prop :=
  ∃ issued ≤ provenCount w.store, generation = generationOf config issued ∧ (pending w ≠ [] → issued < provenCount w.store)

structure Dated (config : Config) (w : World) : Prop where
  older : ∀ generation, w.store.generation = some generation → Older config w generation
  settled : pending w = [] → 0 < provenCount w.store → w.store.generation = some (generationOf config (provenCount w.store))
  one : (pending w).length ≤ 1

theorem Older.moves {generation : Digest} (older : Older config w generation) (moves : Moves config w w') : Older config w' generation := by
  obtain ⟨issued, bound, same, waits⟩ := older
  cases moves with
  | quiet _ counted waiting =>
    refine ⟨issued, by omega, same, fun some => ?_⟩
    rw [counted]
    exact waits fun none => some (List.perm_nil.mp (none ▸ waiting))
  | published _ counted settled => exact ⟨issued, by omega, same, fun some => absurd settled some⟩
  | proved _ counted _ _ => exact ⟨issued, by omega, same, fun _ => by omega⟩

theorem Dated.moves (dated : Dated config w) (moves : Moves config w w') : Dated config w' := by
  cases moves with
  | quiet generation counted waiting =>
    refine ⟨fun found same => ?_, fun settled positive => ?_, waiting.length_eq ▸ dated.one⟩
    · exact (dated.older found (generation ▸ same)).moves (.quiet generation counted waiting)
    · rw [generation, counted]
      exact dated.settled (List.nil_perm.mp (settled ▸ waiting)) (counted ▸ positive)
  | published generation counted settled =>
    refine ⟨fun found same => ?_, fun _ _ => generation, by rw [settled]; exact Nat.zero_le 1⟩
    rw [generation] at same
    cases same
    exact ⟨_, le_refl _, rfl, fun some => absurd settled some⟩
  | proved generation counted settled one =>
    refine ⟨fun found same => ?_, fun none => ?_, one.le⟩
    · exact (dated.older found (generation ▸ same)).moves (.proved generation counted settled one)
    · rw [none] at one
      cases one

theorem Moves.counted_le (moves : Moves config w w') : provenCount w.store ≤ provenCount w'.store := by
  cases moves <;> omega

theorem fresh_dated : Dated config World.fresh :=
  ⟨fun _ same => (by cases same), fun _ positive => absurd positive (lt_irrefl 0), Nat.zero_le 1⟩

def InsertsBehind (w w' : World) : Prop :=
  ∃ row ∈ w'.store.db.v4Pools.rows, w.store.db.v4Pools.get? row.poolId = none ∧
    ∃ block, row.createdBlock = some block ∧ Behind w.store block

def Fresh (config : Config) (chain : Chain) (store store' : Store) : Prop :=
  ∀ row ∈ store'.db.v4Pools.rows, row ∈ store.db.v4Pools.rows ∨ ∃ log ∈ chain.initializes, ∃ args, log.args = some args ∧
    row = eventRow config args log.blockNumber ∧ Valid config args log.blockNumber ∧ InScope config store args ∧
    config.poolGenesisBlock ≤ log.blockNumber

theorem Fresh.same (same : store'.db = store.db) : Fresh config chain store store' := fun _ inside => Or.inl (same ▸ inside)

theorem Window.rows {rows : List InitializeLog} (window : Window config chain rows store store' [])
    (members : ∀ log ∈ rows, log ∈ chain.initializes ∧ config.poolGenesisBlock ≤ log.blockNumber) : Fresh config chain store store' := by
  intro row inside
  refine (window.fresh row inside).imp_right fun found => ?_
  obtain ⟨log, listed, args, read, built, valid, inScope⟩ := found
  exact ⟨log, (members log listed).1, args, read, built, valid, inScope, (members log listed).2⟩

theorem inSweep_fresh (i : Nat) {act : Store → Sweep → Store × Sweep}
    (fresh : ∀ sweep ∈ w.sweeps, Fresh config chain w.store (act w.store sweep).1) :
    Fresh config chain w.store (inSweep i act w).store := by
  rcases inSweep_cases i act w with same | ⟨before, sweep, after, split, _, result⟩
  · rw [same]
    exact Fresh.same rfl
  · rw [result]
    exact fresh sweep (by rw [split]; simp)

theorem step_fresh (sound : Sound config chain w) : Fresh config chain w.store (step config chain w s).store := by
  cases s with
  | tailStart head =>
    unfold step syncLaunchpadTokens
    dsimp only
    split <;> exact Fresh.same rfl
  | launchpadWindow hi =>
    unfold step launchpadWindow
    dsimp only
    split
    · split
      · split
        · rename_i store ran
          obtain ⟨tokens, rfl, _⟩ := storeLaunches_ok ran
          exact Fresh.same rfl
        · exact Fresh.same rfl
      · exact Fresh.same rfl
    · exact Fresh.same rfl
  | tailCursor =>
    unfold step readCursor
    dsimp only
    split
    · split
      · split <;> exact Fresh.same rfl
      · exact Fresh.same rfl
    · exact Fresh.same rfl
  | tailWindow hi =>
    unfold step tailWindow
    dsimp only
    split
    · rename_i head cursor lo durable retried at_tail
      have scanning := sound.tail
      rw [at_tail] at scanning
      have low := scanning.2.2.1
      split
      · split
        · rename_i store ran
          have window := storeWindow_ok sound.fromChain (fun log inside => (mem_initializeLogs.mp inside).1) ran
          refine window.rows fun log inside => ?_
          obtain ⟨member, lower, _⟩ := mem_initializeLogs.mp inside
          exact ⟨member, low.trans lower⟩
        · exact Fresh.same rfl
      · exact Fresh.same rfl
    · exact Fresh.same rfl
  | repairWindow hi =>
    unfold step repairWindow
    dsimp only
    split
    · rename_i head cursor scan rest at_tail
      have repairing := sound.tail
      rw [at_tail] at repairing
      have low := (repairing.2.2.2.2 scan List.mem_cons_self).2
      split
      · split
        · rename_i store next ran
          refine (window_ok sound.fromChain ran).1.rows fun log inside => ?_
          obtain ⟨member, lower, _⟩ := mem_initializeLogs.mp (List.mem_filter.mp inside).1
          exact ⟨member, low.trans lower⟩
        · exact Fresh.same rfl
      · exact Fresh.same rfl
    · exact Fresh.same rfl
  | repairDone =>
    unfold step repairDone
    dsimp only
    split <;> exact Fresh.same rfl
  | tailDone =>
    unfold step tailDone
    dsimp only
    split
    · split <;> exact Fresh.same rfl
    · exact Fresh.same rfl
  | tailFail => exact Fresh.same rfl
  | sweepStart deep limit => exact Fresh.same rfl
  | answer i address issuer =>
    refine inSweep_fresh i fun sweep _ => ?_
    unfold answer
    split <;> exact Fresh.same rfl
  | unread i address => exact inSweep_fresh i fun sweep _ => Fresh.same rfl
  | scanStart i head =>
    refine inSweep_fresh i fun sweep _ => ?_
    unfold admitV4Token
    split <;> exact Fresh.same rfl
  | scanWindow i hi =>
    refine inSweep_fresh i fun sweep member => ?_
    unfold scanWindow
    split
    · exact Fresh.same rfl
    · rename_i scan running
      have low := (sound.scans sweep member scan running).2
      split
      · split
        · rename_i store next ran
          refine (window_ok sound.fromChain ran).1.rows fun log inside => ?_
          obtain ⟨listed, lower, _⟩ := mem_initializeLogs.mp (List.mem_filter.mp inside).1
          exact ⟨listed, low.trans lower⟩
        · exact Fresh.same rfl
      · exact Fresh.same rfl
  | scanDone i =>
    refine inSweep_fresh i fun sweep _ => ?_
    unfold scanDone
    split
    · exact Fresh.same rfl
    · split <;> exact Fresh.same rfl
  | scanFail i => exact inSweep_fresh i fun sweep _ => Fresh.same rfl
  | crash => exact Fresh.same rfl

theorem insertsBehind_pending (sound : Sound config chain w) (inserts : InsertsBehind w (step config chain w s)) : pending w ≠ [] := by
  obtain ⟨row, inside, missing, block, created, behind⟩ := inserts
  rcases step_fresh sound row inside with old | ⟨log, member, args, read, built, valid, inScope, above⟩
  · exact absurd rfl (Table.not_mem_of_get? missing old)
  · subst built
    cases created
    rcases sound.covered log member args read valid above behind inScope with stored | owed
    · have key : (eventRow config args log.blockNumber).poolId = args.id := rfl
      rw [key] at missing
      rw [Stored, missing] at stored
      cases stored
    · exact owed_pending owed

def Complete (config : Config) (chain : Chain) (store : Store) : Prop :=
  ∀ log ∈ chain.initializes, ∀ args, log.args = some args → Valid config args log.blockNumber →
    config.poolGenesisBlock ≤ log.blockNumber → Behind store log.blockNumber → InScope config store args →
    ∃ row, store.db.v4Pools.get? args.id = some row ∧ row.keyFeePpm = some args.fee ∧ row.createdBlock = some log.blockNumber

def Renewed (config : Config) (chain : Chain) (steps : List Step) : Prop :=
  ∀ before s after, steps = before ++ s :: after →
    InsertsBehind (Trace.run (step config chain) World.fresh before) (Trace.run (step config chain) World.fresh (before ++ [s])) →
    ∀ earlier later, before = earlier ++ later → ∀ generation,
      (Trace.run (step config chain) World.fresh earlier).store.generation = some generation →
      (Trace.run (step config chain) World.fresh steps).store.generation ≠ some generation

def Kept (config : Config) (chain : Chain) (w : World) : Prop := Sound config chain w ∧ Dated config w

theorem step_kept (ordered : LaunchedFirst chain) (kept : Kept config chain w) (orderly : Orderly config chain w s) :
    Kept config chain (step config chain w s) ∧ Moves config w (step config chain w s) := by
  have moves := step_moves kept.1 kept.2.one orderly
  exact ⟨⟨step_sound ordered kept.1 orderly, kept.2.moves moves⟩, moves⟩

/-- In every orderly run, wherever no proven token waits for its scan, the directory is complete and its
generation is new since the last row behind the cursor. -/
theorem directory_complete (config : Config) (chain : Chain) (injective : Function.Injective (generationOf config))
    (ordered : LaunchedFirst chain) (steps : List Step) (orderly : Trace.Along (step config chain) (Orderly config chain) World.fresh steps)
    (settled : pending (Trace.run (step config chain) World.fresh steps) = []) :
    Complete config chain (Trace.run (step config chain) World.fresh steps).store ∧ Renewed config chain steps := by
  have each : ∀ w s, Kept config chain w → Orderly config chain w s → Kept config chain (step config chain w s) :=
    fun w s kept orderly => (step_kept ordered kept orderly).1
  have start : Kept config chain World.fresh := ⟨fresh_sound, fresh_dated⟩
  refine ⟨fun log member args read valid above behind inScope => ?_, ?_⟩
  · have sound := (Trace.run_keeps each start orderly).1
    have stored := (sound.covered log member args read valid above behind inScope).resolve_right (not_owed settled)
    exact ⟨_, stored, rfl, rfl⟩
  · intro before s after split inserts earlier later prior generation published same
    subst prior
    rw [split] at orderly
    obtain ⟨first, rest⟩ := Trace.along_append.mp orderly
    obtain ⟨early, middle⟩ := Trace.along_append.mp first
    have kept := Trace.run_keeps each start first
    -- The old generation counts fewer proven tokens than the store when the row went in.
    have older : Older config (Trace.run (step config chain) World.fresh (earlier ++ later)) generation := by
      have begun := Trace.run_keeps each start early
      have eachOlder : ∀ w s, Kept config chain w ∧ Older config w generation → Orderly config chain w s →
          Kept config chain (step config chain w s) ∧ Older config (step config chain w s) generation := fun w s both orderly =>
        ⟨(step_kept ordered both.1 orderly).1, both.2.moves (step_kept ordered both.1 orderly).2⟩
      rw [Trace.run_append]
      exact (Trace.run_keeps eachOlder ⟨begun, begun.2.older generation published⟩ middle).2
    have waits : pending (Trace.run (step config chain) World.fresh (earlier ++ later)) ≠ [] := by
      rw [Trace.run_append (step config chain) World.fresh (earlier ++ later) [s]] at inserts
      exact insertsBehind_pending kept.1 inserts
    obtain ⟨issued, _, built, below⟩ := older
    have counts : ∀ w s, Kept config chain w ∧ provenCount (Trace.run (step config chain) World.fresh (earlier ++ later)).store ≤ provenCount w.store →
        Orderly config chain w s → Kept config chain (step config chain w s) ∧
          provenCount (Trace.run (step config chain) World.fresh (earlier ++ later)).store ≤ provenCount (step config chain w s).store :=
      fun w s both orderly => ⟨(step_kept ordered both.1 orderly).1, both.2.trans (step_kept ordered both.1 orderly).2.counted_le⟩
    have final := Trace.run_keeps counts ⟨kept, le_refl _⟩ rest
    rw [← Trace.run_append, ← split] at final
    have fewer := below waits
    have now := final.1.2.settled settled (by omega)
    rw [now, built] at same
    have equal := injective (Option.some.inj same)
    omega

def sampleConfig : Config where
  poolManager := 99
  tokenFactory := 98
  core := []
  tokenGenesisBlock := 1
  poolGenesisBlock := 1
  tokenGenesis_pos := Nat.one_pos
  poolGenesis_pos := Nat.one_pos
  eventPoolId currency0 currency1 _ _ _ := currency0 * 1000 + currency1
  keccak256 identity := identity.issued

def sampleChain : Chain where
  launches := [⟨some 20, 4⟩]
  initializes := [⟨some ⟨5009, 5, 9, 500, 10, 0⟩, 3⟩, ⟨some ⟨5020, 5, 20, 500, 10, 0⟩, 6⟩]
  distinct := by decide

theorem sample_ordered : LaunchedFirst sampleChain := by
  intro launch launched token named log member args read names
  simp only [sampleChain, List.mem_cons, List.not_mem_nil, or_false] at launched member
  subst launched
  cases named
  rcases member with rfl | rfl <;> cases read <;> simp [Names] at names ⊢

def sampleTail (head : Nat) : List Step := [.tailStart head, .launchpadWindow head, .tailCursor, .tailWindow head, .tailDone]

def sampleSweep : List Step := [.sweepStart [9] 8, .answer 0 9 (some 77), .scanStart 0 200]

def sampleRun : List Step := sampleTail 200 ++ sampleSweep ++ [.scanWindow 0 200, .scanWindow 0 200, .scanDone 0] ++ sampleTail 400

theorem directory_complete_sample :
    Complete sampleConfig sampleChain (Trace.run (step sampleConfig sampleChain) World.fresh sampleRun).store ∧
      Renewed sampleConfig sampleChain sampleRun :=
  directory_complete sampleConfig sampleChain (fun _ _ same => same) sample_ordered sampleRun (by decide) (by decide)

def lostRun : List Step := sampleTail 200 ++ sampleSweep ++ [.scanFail 0] ++ sampleTail 400 ++ [.sweepStart [9] 8] ++ sampleTail 600

/-- Later sweeps do not ask again and later tails read only an overlap: the pool of the share never gets a row. -/
theorem failed_scan_loses_pool :
    ¬ Complete sampleConfig sampleChain (Trace.run (step sampleConfig sampleChain) World.fresh lostRun).store := by
  intro complete
  have inScope : inV4DirectoryScope sampleConfig (Trace.run (step sampleConfig sampleChain) World.fresh lostRun).store 5 9 = true := by
    decide
  have missing : (Trace.run (step sampleConfig sampleChain) World.fresh lostRun).store.db.v4Pools.get? 5009 = none := by decide
  obtain ⟨row, found, _⟩ := complete ⟨some ⟨5009, 5, 9, 500, 10, 0⟩, 3⟩ (by decide) ⟨5009, 5, 9, 500, 10, 0⟩ rfl (by decide) (by decide)
    ⟨600, by decide, by decide⟩ inScope
  rw [missing] at found
  cases found

end LpTerminal.Catalog.V4Rpc
