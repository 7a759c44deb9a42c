import LpTerminal.Catalog.V4RpcWindows

/-!
The directory over every interleaving of one tail and any sweeps: which logs it stores, and which
generations it publishes.
-/

namespace LpTerminal.Catalog.V4Rpc

variable {config : Config} {chain : Chain} {store store' : Store} {w w' : World} {s : Step}

def Behind (store : Store) (block : Nat) : Prop := ∃ cursor, store.cursor = some cursor ∧ block ≤ cursor

def LaunchedBefore (config : Config) (chain : Chain) (store : Store) (block : Nat) : Prop :=
  ∀ launch ∈ chain.launches, ∀ token, launch.token = some token → config.tokenGenesisBlock ≤ launch.blockNumber →
    launch.blockNumber < block → isLaunchpadToken store token = true

def Sweep.Owes (sweep : Sweep) (args : InitializeArgs) (block : Nat) : Prop :=
  (∃ token ∈ sweep.admitted, Names args token) ∨ ∃ scan, sweep.scan = some scan ∧ scan.Ahead args block

def Sweep.pending (sweep : Sweep) : List Address := sweep.admitted ++ (sweep.scan.map TokenScan.token).toList

def pending (w : World) : List Address := w.sweeps.flatMap Sweep.pending

def Owed (sweeps : List Sweep) (args : InitializeArgs) (block : Nat) : Prop := ∃ sweep ∈ sweeps, sweep.Owes args block

variable {args : InitializeArgs}

theorem owed_pending {block : Nat} (owed : Owed w.sweeps args block) : pending w ≠ [] := by
  obtain ⟨sweep, member, owes⟩ := owed
  have some : ∃ token, token ∈ sweep.pending := by
    unfold Sweep.pending
    rcases owes with ⟨token, admitted, _⟩ | ⟨scan, running, _⟩
    · exact ⟨token, List.mem_append_left _ admitted⟩
    · exact ⟨scan.token, List.mem_append_right _ (by rw [running]; exact List.mem_singleton.mpr rfl)⟩
  obtain ⟨token, inside⟩ := some
  exact List.ne_nil_of_mem (List.mem_flatMap.mpr ⟨sweep, member, inside⟩)

def ScanSound (config : Config) (scan : TokenScan) : Prop :=
  scan.fromBlock = config.poolGenesisBlock ∧ config.poolGenesisBlock ≤ scan.lo

def CursorAt (config : Config) (store : Store) (cursor : Nat) : Prop :=
  store.cursor = some cursor ∨ store.cursor = none ∧ cursor < config.poolGenesisBlock

def TailSound (config : Config) (chain : Chain) (store : Store) : Tail → Prop
  | .idle => True
  | .syncing _ lo => LaunchedBefore config chain store lo ∧ config.tokenGenesisBlock ≤ lo
  | .scanning head cursor lo durableCursor _ =>
    LaunchedBefore config chain store (head + 1) ∧ durableCursor ≤ head ∧ config.poolGenesisBlock ≤ lo ∧
      config.poolGenesisBlock ≤ cursor + 1 ∧ durableCursor + 1 = max (cursor + 1) lo ∧ CursorAt config store durableCursor
  | .repairing head cursor scans =>
    LaunchedBefore config chain store (head + 1) ∧ cursor ≤ head ∧ config.poolGenesisBlock ≤ cursor + 1 ∧
      CursorAt config store cursor ∧ ∀ scan ∈ scans, ScanSound config scan

structure Sound (config : Config) (chain : Chain) (w : World) : Prop where
  fromChain : FromChain config chain w.store
  synced : ∀ cursor, w.store.launchpadCursor = some cursor →
    LaunchedBefore config chain w.store (cursor + 1) ∧ config.tokenGenesisBlock ≤ cursor + 1
  launched : ∀ cursor, w.store.cursor = some cursor → LaunchedBefore config chain w.store (cursor + 1)
  bounded : ∀ cursor, w.store.cursor = some cursor → config.poolGenesisBlock ≤ cursor + 1
  covered : ∀ log ∈ chain.initializes, ∀ args, log.args = some args → Valid config args log.blockNumber →
    config.poolGenesisBlock ≤ log.blockNumber → Behind w.store log.blockNumber → InScope config w.store args →
    Stored config w.store args log.blockNumber ∨ Owed w.sweeps args log.blockNumber
  tail : TailSound config chain w.store w.tail
  scans : ∀ sweep ∈ w.sweeps, ∀ scan, sweep.scan = some scan → ScanSound config scan

theorem fresh_sound : Sound config chain World.fresh where
  fromChain _ inside := by cases inside
  synced _ stored := by cases stored
  launched _ stored := by cases stored
  bounded _ stored := by cases stored
  covered _ _ _ _ _ _ behind := by
    obtain ⟨_, stored, _⟩ := behind
    cases stored
  tail := trivial
  scans _ inside := by cases inside

section

variable (sound : Sound config chain w)
include sound

theorem Sound.withTail {tail : Tail} (tailSound : TailSound config chain w.store tail) :
    Sound config chain { w with tail := tail } :=
  { sound with tail := tailSound }

theorem Sound.idle : Sound config chain { w with tail := .idle } := sound.withTail trivial

theorem Sound.grew (grew : Grew w.store store') (fromChain : FromChain config chain store') :
    Sound config chain { w with store := store' } := by
  obtain ⟨db, rfl, kept⟩ := grew
  refine { sound with fromChain := fromChain, covered := fun log member args read valid above behind inScope => ?_, tail := ?_ }
  · refine (sound.covered log member args read valid above behind inScope).imp_left fun stored => ?_
    exact stored.grew ⟨db, rfl, kept⟩
  · have tail := sound.tail
    cases at_tail : w.tail <;> rw [at_tail] at tail <;> exact tail

theorem Sound.publish : Sound config chain { w with store := publish config w.store } := by
  refine { sound with tail := ?_ }
  have tail := sound.tail
  cases at_tail : w.tail <;> rw [at_tail] at tail <;> exact tail

theorem storedCursor_launched :
    LaunchedBefore config chain w.store (storedCursor w.store.launchpadCursor config.tokenGenesisBlock + 1) ∧
      config.tokenGenesisBlock ≤ storedCursor w.store.launchpadCursor config.tokenGenesisBlock + 1 := by
  have positive := config.tokenGenesis_pos
  have none_before : LaunchedBefore config chain w.store (config.tokenGenesisBlock - 1 + 1) ∧
      config.tokenGenesisBlock ≤ config.tokenGenesisBlock - 1 + 1 :=
    ⟨fun launch member token read above below => by omega, by omega⟩
  unfold storedCursor
  cases stored : w.store.launchpadCursor with
  | none => exact none_before
  | some cursor =>
    by_cases positive : 0 < cursor
    · rw [Option.filter_some_pos (by simpa using positive)]
      exact sound.synced cursor stored
    · rw [Option.filter_some_neg (by simpa using positive)]
      exact none_before

theorem syncLaunchpadTokens_sound {head : Nat} : Sound config chain (syncLaunchpadTokens config head w) := by
  unfold syncLaunchpadTokens
  dsimp only
  split
  · exact sound.withTail (storedCursor_launched sound)
  · exact sound

end

def LaunchedFirst (chain : Chain) : Prop :=
  ∀ launch ∈ chain.launches, ∀ token, launch.token = some token → ∀ log ∈ chain.initializes, ∀ args, log.args = some args →
    Names args token → launch.blockNumber ≤ log.blockNumber

theorem inScope_iff :
    InScope config store args ↔ (∃ token, Names args token ∧ provenOrigin store token = true) ∨
      args.currency0 ∈ config.core ∧ args.currency1 ∈ config.core := by
  unfold InScope inV4DirectoryScope Names
  simp only [Bool.or_eq_true, Bool.and_eq_true, decide_eq_true_eq]
  constructor
  · rintro ((first | second) | core)
    · exact Or.inl ⟨_, Or.inl rfl, first⟩
    · exact Or.inl ⟨_, Or.inr rfl, second⟩
    · exact Or.inr core
  · rintro (⟨token, rfl | rfl, proven⟩ | core)
    · exact Or.inl (Or.inl proven)
    · exact Or.inl (Or.inr proven)
    · exact Or.inr core

theorem storeLaunches_ok {rows : List LaunchLog} (ran : rows.foldlM storeLaunch store = .ok store') :
    ∃ tokens, store' = { store with launchpadTokens := tokens } ∧
      ∀ token, isLaunchpadToken store' token = true ↔ isLaunchpadToken store token = true ∨ ∃ launch ∈ rows, launch.token = some token := by
  induction rows generalizing store with
  | nil =>
    cases ran
    exact ⟨store'.launchpadTokens, rfl, fun token => by simp⟩
  | cons row rest ih =>
    rw [List.foldlM_cons] at ran
    obtain ⟨middle, one, later⟩ := Fallible.bind_ok ran
    obtain ⟨tokens, rfl, known⟩ := ih later
    unfold storeLaunch at one
    split at one
    · cases one
    rename_i token read
    obtain ⟨_, built⟩ := Fallible.then_ok.mp one
    cases built
    have inserted : ∀ other, isLaunchpadToken (insertLaunchpadToken token row.blockNumber store) other = true ↔
        isLaunchpadToken store other = true ∨ other = token := by
      intro other
      unfold insertLaunchpadToken
      split
      · rename_i present
        refine ⟨Or.inl, fun either => either.elim id fun same => ?_⟩
        subst same
        exact present
      · unfold isLaunchpadToken
        dsimp only
        by_cases same : other = token
        · subst same
          rw [Table.get?_put_same store.launchpadTokens (⟨other, row.blockNumber⟩ : LaunchpadToken)]
          simp
        · rw [Table.get?_put_other (show other ≠ (⟨token, row.blockNumber⟩ : LaunchpadToken).address from same)]
          simp [same]
    refine ⟨tokens, ?_, fun other => ?_⟩
    · unfold insertLaunchpadToken
      split <;> rfl
    · rw [known other, inserted other, List.exists_mem_cons_iff, read]
      constructor
      · rintro ((before | rfl) | later)
        · exact Or.inl before
        · exact Or.inr (Or.inl rfl)
        · exact Or.inr (Or.inr later)
      · rintro (before | here | later)
        · exact Or.inl (Or.inl before)
        · exact Or.inl (Or.inr (Option.some.inj here).symm)
        · exact Or.inr later

theorem launchpadWindow_sound (ordered : LaunchedFirst chain) (sound : Sound config chain w) {hi : Nat} :
    Sound config chain (launchpadWindow chain hi w) := by
  unfold launchpadWindow
  split
  · rename_i head lo at_tail
    have syncing := sound.tail
    rw [at_tail] at syncing
    obtain ⟨recorded, genesis⟩ := syncing
    split
    · rename_i range
      split
      · rename_i store ran
        obtain ⟨tokens, rfl, known⟩ := storeLaunches_ok ran
        have grows : ∀ block, LaunchedBefore config chain w.store block →
            LaunchedBefore config chain { w.store with launchpadTokens := tokens } block :=
          fun block before launch member token read above below => (known token).mpr (Or.inl (before launch member token read above below))
        have synced : LaunchedBefore config chain { w.store with launchpadTokens := tokens } (hi + 1) := by
          intro launch member token read above below
          by_cases early : launch.blockNumber < lo
          · exact grows lo recorded launch member token read above early
          · refine (known token).mpr (Or.inr ⟨launch, List.mem_filter.mpr ⟨member, ?_⟩, read⟩)
            rw [decide_eq_true_eq]
            omega
        refine ⟨sound.fromChain, fun cursor stored => ?_, fun cursor stored => grows _ (sound.launched cursor stored), sound.bounded, ?_,
          ⟨synced, by omega⟩, sound.scans⟩
        · cases stored
          exact ⟨synced, by omega⟩
        · intro log member args read valid above behind inScope
          refine sound.covered log member args read valid above behind ?_
          rcases inScope_iff.mp inScope with ⟨token, names, proven⟩ | core
          · refine inScope_iff.mpr (Or.inl ⟨token, names, ?_⟩)
            unfold provenOrigin at proven ⊢
            rw [Bool.or_eq_true] at proven ⊢
            refine proven.imp_left fun launched => ?_
            rcases (known token).mp launched with before | ⟨launch, inside, named⟩
            · exact before
            · -- The launch is no later than its pool, which is behind the cursor: it was recorded before.
              obtain ⟨cursor, stored, reached⟩ := behind
              obtain ⟨listed, within⟩ := List.mem_filter.mp inside
              rw [decide_eq_true_eq] at within
              have first := ordered launch listed token named log member args read names
              exact sound.launched cursor stored launch listed token named (by omega) (by omega)
          · exact inScope_iff.mpr (Or.inr core)
      · exact sound.idle
    · exact sound
  · exact sound

theorem tailFrom_le {cursor : Nat} (above : config.poolGenesisBlock ≤ cursor + 1) :
    config.poolGenesisBlock ≤ tailFrom config cursor ∧ tailFrom config cursor ≤ cursor + 1 := by
  unfold tailFrom
  omega

theorem readCursor_sound (sound : Sound config chain w) : Sound config chain (readCursor config w) := by
  unfold readCursor
  split
  · rename_i head lo at_tail
    have syncing := sound.tail
    rw [at_tail] at syncing
    dsimp only
    split
    · rename_i past
      split
      · rename_i within
        have positive := config.poolGenesis_pos
        have at_cursor : config.poolGenesisBlock ≤ storedCursor w.store.cursor config.poolGenesisBlock + 1 ∧
            CursorAt config w.store (storedCursor w.store.cursor config.poolGenesisBlock) := by
          unfold storedCursor CursorAt
          cases stored : w.store.cursor with
          | none => exact ⟨by dsimp [Option.filter]; omega, Or.inr ⟨rfl, by dsimp [Option.filter]; omega⟩⟩
          | some cursor =>
            have above := sound.bounded cursor stored
            by_cases counts : 0 < cursor
            · rw [Option.filter_some_pos (by simpa using counts)]
              exact ⟨above, Or.inl rfl⟩
            · obtain rfl : cursor = config.poolGenesisBlock - 1 := by omega
              rw [Option.filter_some_neg (by simpa using counts)]
              exact ⟨above, Or.inl rfl⟩
        obtain ⟨low, high⟩ := tailFrom_le at_cursor.1
        refine sound.withTail ⟨fun launch member token read above below => ?_, within, low, at_cursor.1, by omega, at_cursor.2⟩
        exact syncing.1 launch member token read above (by omega)
      · exact sound.idle
    · exact sound
  · exact sound

theorem start_scanSound {token : Address} {upper : Nat} : ScanSound config (TokenScan.start token config.poolGenesisBlock upper) := by
  unfold TokenScan.start
  refine ⟨TokenScan.settle_range.1, ?_⟩
  exact @TokenScan.settle_lo ⟨token, config.poolGenesisBlock, upper, .currency0, config.poolGenesisBlock⟩ (le_refl _)

theorem recover_sound {head cursor durable lo hi : Nat} {retried : Bool} {e : ScanError} (fromChain : FromChain config chain store)
    (scanning : TailSound config chain store (.scanning head cursor lo durable retried))
    (threw : storeWindow config durable (initializeLogs chain lo hi) store = .error e) :
    TailSound config chain store (recover config head cursor retried store e) := by
  cases e with
  | other message => exact trivial
  | behindCursor id createdBlock durableCursor currency0 currency1 =>
    unfold recover
    dsimp only
    split
    · exact trivial
    · obtain ⟨recorded, within, low, above, reached, at_cursor⟩ := scanning
      obtain ⟨log, inside, behind⟩ := storeWindow_behind fromChain (fun log inside => (mem_initializeLogs.mp inside).1) threw
      obtain ⟨_, lower, _⟩ := mem_initializeLogs.mp inside
      -- Only the overlap before the first cursor can hold a row behind it.
      obtain rfl : durable = cursor := by omega
      refine ⟨recorded, within, above, at_cursor, fun scan listed => ?_⟩
      obtain ⟨origin, _, rfl⟩ := List.mem_map.mp (List.mem_filter.mp listed).1
      exact start_scanSound

theorem tailWindow_sound (sound : Sound config chain w) {hi : Nat} : Sound config chain (tailWindow config chain hi w) := by
  unfold tailWindow
  split
  · rename_i head cursor lo durable retried at_tail
    have scanning := sound.tail
    rw [at_tail] at scanning
    split
    · rename_i range
      split
      · rename_i store ran
        obtain ⟨recorded, within, low, above, reached, at_cursor⟩ := scanning
        have window := storeWindow_ok sound.fromChain (fun log inside => (mem_initializeLogs.mp inside).1) ran
        obtain ⟨db, rfl, kept⟩ := window.grew
        have genesis := config.poolGenesis_pos
        refine ⟨window.fromChain, sound.synced, fun stored same => ?_, fun stored same => ?_, ?_, ?_, sound.scans⟩
        · cases same
          exact fun launch member token read above below => recorded launch member token read above (by omega)
        · cases same
          omega
        · intro log member args read valid from_genesis behind inScope
          obtain ⟨_, same, behind⟩ := behind
          cases same
          have grew : Grew w.store { w.store with db := db } := ⟨db, rfl, kept⟩
          by_cases old : log.blockNumber ≤ durable
          · rcases at_cursor with stored | ⟨_, early⟩
            · refine (sound.covered log member args read valid from_genesis ⟨durable, stored, old⟩ inScope).imp_left fun stored => ?_
              have later := stored.grew grew
              exact later
            · omega
          · have inside : log ∈ initializeLogs chain lo hi := mem_initializeLogs.mpr ⟨member, by omega, by omega⟩
            rcases window.stored log inside with waiting | done
            · cases waiting
            · exact Or.inl (done args read inScope)
        · exact ⟨recorded, by omega, by omega, above, by omega, Or.inl rfl⟩
      · rename_i e threw
        exact sound.withTail (recover_sound sound.fromChain scanning threw)
    · exact sound
  · exact sound

theorem window_ok {scan next : TokenScan} {hi : Nat} (fromChain : FromChain config chain store)
    (ran : scan.window config chain hi store = .ok (store', next)) :
    Window config chain ((initializeLogs chain scan.lo hi).filter scan.asks) store store' [] ∧
      next = ({ scan with lo := hi + 1 } : TokenScan).settle := by
  unfold TokenScan.window at ran
  obtain ⟨s, stored, built⟩ := Fallible.bind_ok ran
  cases built
  exact ⟨storeWindow_ok fromChain (fun log inside => (mem_initializeLogs.mp (List.mem_filter.mp inside).1).1) stored, rfl⟩

theorem window_scanSound {scan : TokenScan} {hi : Nat} (sound : ScanSound config scan) (range : scan.lo ≤ hi) :
    ScanSound config ({ scan with lo := hi + 1 } : TokenScan).settle := by
  obtain ⟨start, low⟩ := sound
  refine ⟨TokenScan.settle_range.1.trans start, ?_⟩
  rw [← start] at low ⊢
  exact @TokenScan.settle_lo { scan with lo := hi + 1 } (by dsimp only; omega)

theorem repairWindow_sound (sound : Sound config chain w) {hi : Nat} : Sound config chain (repairWindow config chain hi w) := by
  unfold repairWindow
  split
  · rename_i head cursor scan rest at_tail
    have repairing := sound.tail
    rw [at_tail] at repairing
    obtain ⟨recorded, within, above, at_cursor, scans⟩ := repairing
    split
    · rename_i range
      split
      · rename_i store next ran
        obtain ⟨window, rfl⟩ := window_ok sound.fromChain ran
        have later : ∀ scan ∈ rest, ScanSound config scan := fun other inside => scans other (List.mem_cons_of_mem _ inside)
        have grown := sound.grew window.grew window.fromChain
        obtain ⟨db, rfl, kept⟩ := window.grew
        refine grown.withTail ⟨recorded, within, above, at_cursor, ?_⟩
        split
        · exact later
        · intro other inside
          rcases List.mem_cons.mp inside with rfl | old
          · exact window_scanSound (scans scan List.mem_cons_self) range.1
          · exact later other old
      · exact sound.idle
    · exact sound
  · exact sound

theorem repairDone_sound (sound : Sound config chain w) : Sound config chain (repairDone config w) := by
  unfold repairDone
  split
  · rename_i head cursor at_tail
    have repairing := sound.tail
    rw [at_tail] at repairing
    obtain ⟨recorded, within, above, at_cursor, _⟩ := repairing
    obtain ⟨low, high⟩ := tailFrom_le above
    exact sound.publish.withTail ⟨recorded, within, low, above, by omega, at_cursor⟩
  · exact sound

theorem tailDone_sound (sound : Sound config chain w) : Sound config chain (tailDone config w) := by
  unfold tailDone
  split
  · rename_i head cursor lo durable retried at_tail
    have scanning := sound.tail
    rw [at_tail] at scanning
    obtain ⟨recorded, within, low, above, reached, at_cursor⟩ := scanning
    split
    · rename_i past
      obtain rfl : durable = head := by omega
      have genesis := config.poolGenesis_pos
      refine ⟨sound.fromChain, sound.synced, fun stored same => ?_, fun stored same => ?_, ?_, trivial, sound.scans⟩
      · cases same
        exact recorded
      · cases same
        omega
      · intro log member args read valid from_genesis behind inScope
        obtain ⟨_, same, behind⟩ := behind
        cases same
        rcases at_cursor with stored | ⟨_, early⟩
        · exact sound.covered log member args read valid from_genesis ⟨durable, stored, behind⟩ inScope
        · omega
    · exact sound
  · exact sound

theorem inSweep_cases (i : Nat) (act : Store → Sweep → Store × Sweep) (w : World) :
    inSweep i act w = w ∨ ∃ before sweep after, w.sweeps = before ++ sweep :: after ∧ w.sweeps[i]? = some sweep ∧
      inSweep i act w = { w with store := (act w.store sweep).1, sweeps := before ++ (act w.store sweep).2 :: after } := by
  unfold inSweep
  cases found : w.sweeps[i]? with
  | none => exact Or.inl rfl
  | some sweep =>
    obtain ⟨inside, at_i⟩ := List.getElem?_eq_some_iff.mp found
    refine Or.inr ⟨w.sweeps.take i, sweep, w.sweeps.drop (i + 1), ?_, rfl, ?_⟩
    · rw [← at_i, List.cons_getElem_drop_succ, List.take_append_drop]
    · dsimp only
      rw [List.set_eq_take_append_cons_drop, if_pos inside]

theorem owed_split {before after : List Sweep} {sweep : Sweep} {block : Nat} :
    Owed (before ++ sweep :: after) args block ↔ sweep.Owes args block ∨ Owed (before ++ after) args block := by
  unfold Owed
  simp only [List.mem_append, List.mem_cons]
  constructor
  · rintro ⟨other, (early | rfl | late), owes⟩
    · exact Or.inr ⟨other, Or.inl early, owes⟩
    · exact Or.inl owes
    · exact Or.inr ⟨other, Or.inr late, owes⟩
  · rintro (owes | ⟨other, (early | late), owes⟩)
    · exact ⟨sweep, Or.inr (Or.inl rfl), owes⟩
    · exact ⟨other, Or.inl early, owes⟩
    · exact ⟨other, Or.inr (Or.inr late), owes⟩

theorem Sound.withSweep (sound : Sound config chain w) {before after : List Sweep} {sweep sweep' : Sweep}
    (split : w.sweeps = before ++ sweep :: after)
    (owes : ∀ log ∈ chain.initializes, ∀ args, log.args = some args → config.poolGenesisBlock ≤ log.blockNumber →
      Behind w.store log.blockNumber → InScope config w.store args → sweep.Owes args log.blockNumber →
      Stored config w.store args log.blockNumber ∨ sweep'.Owes args log.blockNumber)
    (scans : ∀ scan, sweep'.scan = some scan → ScanSound config scan) :
    Sound config chain { w with sweeps := before ++ sweep' :: after } := by
  refine { sound with covered := fun log member args read valid above behind inScope => ?_, scans := fun other listed => ?_ }
  · rcases sound.covered log member args read valid above behind inScope with stored | owed
    · exact Or.inl stored
    · rw [split, owed_split] at owed
      rcases owed with mine | others
      · exact (owes log member args read above behind inScope mine).imp_right fun later => owed_split.mpr (Or.inl later)
      · exact Or.inr (owed_split.mpr (Or.inr others))
  · rcases List.mem_append.mp listed with early | rest
    · exact sound.scans other (by rw [split]; exact List.mem_append_left _ early)
    · rcases List.mem_cons.mp rest with rfl | late
      · exact scans
      · exact sound.scans other (by rw [split]; exact List.mem_append_right _ (List.mem_cons_of_mem _ late))

theorem sweepStart_sound (sound : Sound config chain w) {deep : List Address} {limit : Nat} :
    Sound config chain (sweepStart deep limit w) := by
  refine { sound with covered := fun log member args read valid above behind inScope => ?_, scans := fun sweep listed => ?_ }
  · refine (sound.covered log member args read valid above behind inScope).imp_right fun owed => ?_
    obtain ⟨sweep, inside, owes⟩ := owed
    exact ⟨sweep, List.mem_append_left _ inside, owes⟩
  · rcases List.mem_append.mp listed with old | new
    · exact sound.scans sweep old
    · obtain rfl := List.mem_singleton.mp new
      exact fun scan running => by cases running

theorem recordStockToken_issuer {address other : Address} {issuer : Option Address} :
    isStockToken (recordStockToken address issuer store) other = if other = address then issuer.isSome else isStockToken store other := by
  unfold isStockToken stockIssuerOf recordStockToken
  dsimp only
  split
  · rename_i same
    subst same
    rw [Table.get?_put_same store.stockTokens (⟨other, issuer⟩ : StockToken)]
    rfl
  · rename_i apart
    rw [Table.get?_put_other (show other ≠ (⟨address, issuer⟩ : StockToken).address from apart)]

theorem answer_sound (sound : Sound config chain w) {i : Nat} {address : Address} {issuer : Option Address} :
    Sound config chain (inSweep i (answer address issuer) w) := by
  rcases inSweep_cases i (answer address issuer) w with same | ⟨before, sweep, after, split, _, result⟩
  · rw [same]
    exact sound
  rw [result]
  have ran := sound.scans sweep (by rw [split]; simp)
  unfold answer
  split
  · -- A log that enters the scope names the token, which this sweep now owes.
    have newly : ∀ args, InScope config (recordStockToken address issuer w.store) args →
        InScope config w.store args ∨ Names args address ∧ issuer.isSome = true := by
      intro args inScope
      rcases inScope_iff.mp inScope with ⟨token, names, proven⟩ | core
      · unfold provenOrigin at proven
        rw [recordStockToken_issuer] at proven
        by_cases same : token = address
        · subst same
          rw [if_pos rfl, Bool.or_eq_true] at proven
          rcases proven with launched | issued
          · exact Or.inl (inScope_iff.mpr (Or.inl ⟨token, names, by unfold provenOrigin; rw [Bool.or_eq_true]; exact Or.inl launched⟩))
          · exact Or.inr ⟨names, issued⟩
        · rw [if_neg same] at proven
          exact Or.inl (inScope_iff.mpr (Or.inl ⟨token, names, proven⟩))
      · exact Or.inl (inScope_iff.mpr (Or.inr core))
    have tail : TailSound config chain (recordStockToken address issuer w.store) w.tail := by
      have tail := sound.tail
      cases at_tail : w.tail <;> rw [at_tail] at tail <;> exact tail
    refine { sound with covered := fun log member args read valid above behind inScope => ?_, tail := tail, scans := fun other listed => ?_ }
    · dsimp only
      rw [owed_split]
      rcases newly args inScope with old | ⟨names, issued⟩
      · rcases sound.covered log member args read valid above behind old with stored | owed
        · exact Or.inl stored
        · rw [split, owed_split] at owed
          refine Or.inr (owed.imp_left fun owes => owes.imp_left fun admitted => ?_)
          obtain ⟨token, inside, names⟩ := admitted
          refine ⟨token, ?_, names⟩
          dsimp only
          split
          · exact List.mem_append_left _ inside
          · exact inside
      · refine Or.inr (Or.inl (Or.inl ⟨address, ?_, names⟩))
        dsimp only
        rw [if_pos issued]
        exact List.mem_append_right _ (List.mem_singleton.mpr rfl)
    · rcases List.mem_append.mp listed with early | rest
      · exact sound.scans other (by rw [split]; exact List.mem_append_left _ early)
      · rcases List.mem_cons.mp rest with rfl | late
        · exact ran
        · exact sound.scans other (by rw [split]; exact List.mem_append_right _ (List.mem_cons_of_mem _ late))
  · exact sound.withSweep split (fun _ _ _ _ _ _ _ => Or.inr) ran

theorem unread_sound (sound : Sound config chain w) {i : Nat} {address : Address} : Sound config chain (inSweep i (unread address) w) := by
  rcases inSweep_cases i (unread address) w with same | ⟨before, sweep, after, split, _, result⟩
  · rw [same]
    exact sound
  · rw [result]
    exact sound.withSweep split (fun _ _ _ _ _ _ _ => Or.inr) (sound.scans sweep (by rw [split]; simp))

theorem admit_sound (sound : Sound config chain w) {i head : Nat} : Sound config chain (inSweep i (admitV4Token config head) w) := by
  rcases inSweep_cases i (admitV4Token config head) w with same | ⟨before, sweep, after, split, _, result⟩
  · rw [same]
    exact sound
  rw [result]
  have ran := sound.scans sweep (by rw [split]; simp)
  unfold admitV4Token
  split
  · rename_i token rest asked idle admitted
    refine sound.withSweep split (fun log member args read above behind _ owes => Or.inr ?_) fun scan running => ?_
    · rcases owes with ⟨other, inside, names⟩ | ⟨scan, running, _⟩
      · rw [admitted] at inside
        rcases List.mem_cons.mp inside with rfl | later
        · -- The scan reaches the cursor, which the log is behind.
          obtain ⟨cursor, stored, reached⟩ := behind
          have positive := config.poolGenesis_pos
          refine Or.inr ⟨_, rfl, TokenScan.start_ahead names above ?_⟩
          rw [stored, Option.filter_some_pos (by simp; omega)]
          exact reached
        · exact Or.inl ⟨other, later, names⟩
      · rw [idle] at running
        cases running
    · cases running
      exact start_scanSound
  · exact sound.withSweep split (fun _ _ _ _ _ _ _ => Or.inr) ran

/-- The checks of `storeInitialize` on the log alone hold of a log the chain has. -/
def WellFormed (config : Config) (log : InitializeLog) : Prop :=
  match log.args with
  | none => False
  | some args => Valid config args log.blockNumber

instance : DecidablePred (WellFormed config)
  | ⟨none, _⟩ => inferInstanceAs (Decidable False)
  | ⟨some args, block⟩ => inferInstanceAs (Decidable (Valid config args block))

def Orderly (config : Config) (chain : Chain) (w : World) : Step → Prop
  | .answer _ address issuer => stockTokenMeasured w.store address = false ∧ (issuer.isSome = true → pending w = [])
  | .scanWindow _ _ => ∀ sweep ∈ w.sweeps, ∀ scan ∈ sweep.scan, ∀ log ∈ chain.initializes, scan.asks log = true → WellFormed config log
  | .scanFail _ => pending w = []
  | .crash => pending w = []
  | .repairDone => pending w = []
  | .tailDone => pending w = []
  | _ => True

instance : DecidablePred (Orderly config chain w)
  | .answer _ address issuer =>
    inferInstanceAs (Decidable (stockTokenMeasured w.store address = false ∧ (issuer.isSome = true → pending w = [])))
  | .scanWindow _ _ => inferInstanceAs (Decidable (∀ sweep ∈ w.sweeps, ∀ scan ∈ sweep.scan, ∀ log ∈ chain.initializes,
      scan.asks log = true → WellFormed config log))
  | .scanFail _ | .crash | .repairDone | .tailDone => inferInstanceAs (Decidable (pending w = []))
  | .tailStart _ | .launchpadWindow _ | .tailCursor | .tailWindow _ | .repairWindow _ | .tailFail | .sweepStart _ _ | .unread _ _
  | .scanStart _ _ | .scanDone _ => inferInstanceAs (Decidable True)

theorem wellFormed_args {log : InitializeLog} (wellFormed : WellFormed config log) :
    ∃ args, log.args = some args ∧ Valid config args log.blockNumber := by
  unfold WellFormed at wellFormed
  split at wellFormed
  · exact wellFormed.elim
  · rename_i args read
    exact ⟨args, read, wellFormed⟩

theorem window_total {scan : TokenScan} {hi : Nat} (fromChain : FromChain config chain store) (sound : ScanSound config scan)
    (wellFormed : ∀ log ∈ chain.initializes, scan.asks log = true → WellFormed config log) :
    ∃ result, scan.window config chain hi store = .ok result := by
  have positive := config.poolGenesis_pos
  obtain ⟨store', stored⟩ := @storeWindow_total config chain store ((initializeLogs chain scan.lo hi).filter scan.asks) fromChain
    (fun log inside => (mem_initializeLogs.mp (List.mem_filter.mp inside).1).1) fun log inside => by
      obtain ⟨listed, asked⟩ := List.mem_filter.mp inside
      obtain ⟨member, lower, _⟩ := mem_initializeLogs.mp listed
      have low := sound.2
      exact ⟨by omega, wellFormed_args (wellFormed log member asked)⟩
  unfold TokenScan.window
  rw [stored]
  exact ⟨_, rfl⟩

theorem scanWindow_sound (sound : Sound config chain w) {i hi : Nat} (orderly : Orderly config chain w (.scanWindow i hi)) :
    Sound config chain (inSweep i (scanWindow config chain hi) w) := by
  rcases inSweep_cases i (scanWindow config chain hi) w with same | ⟨before, sweep, after, split, _, result⟩
  · rw [same]
    exact sound
  rw [result]
  have member : sweep ∈ w.sweeps := by rw [split]; simp
  have ran := sound.scans sweep member
  unfold scanWindow
  split
  · exact sound.withSweep split (fun _ _ _ _ _ _ _ => Or.inr) ran
  · rename_i scan running
    have scanSound := ran scan running
    split
    · rename_i range
      split
      · rename_i store next told
        obtain ⟨window, rfl⟩ := window_ok sound.fromChain told
        refine (sound.grew window.grew window.fromChain).withSweep split (fun log inside args read _ _ inScope owes => ?_) fun found same => ?_
        · rcases owes with admitted | ⟨other, same, ahead⟩
          · exact Or.inr (Or.inl admitted)
          · obtain rfl : scan = other := Option.some.inj (running.symm.trans same)
            rcases @TokenScan.window_ahead args scan hi log read ahead with ⟨lower, upper, asked⟩ | later
            · have asks : log ∈ (initializeLogs chain scan.lo hi).filter scan.asks :=
                List.mem_filter.mpr ⟨mem_initializeLogs.mpr ⟨inside, lower, upper⟩, asked⟩
              rcases window.stored log asks with waiting | done
              · cases waiting
              · exact Or.inl (done args read (window.grew.scope.mp inScope))
            · exact Or.inr (Or.inr ⟨_, rfl, later⟩)
        · cases same
          exact window_scanSound scanSound range.1
      · rename_i e threw
        obtain ⟨done, told⟩ := @window_total config chain w.store scan hi sound.fromChain scanSound (orderly sweep member scan running)
        rw [told] at threw
        cases threw
    · exact sound.withSweep split (fun _ _ _ _ _ _ _ => Or.inr) ran

theorem scanDone_sound (sound : Sound config chain w) {i : Nat} : Sound config chain (inSweep i (scanDone config) w) := by
  rcases inSweep_cases i (scanDone config) w with same | ⟨before, sweep, after, split, _, result⟩
  · rw [same]
    exact sound
  rw [result]
  have ran := sound.scans sweep (by rw [split]; simp)
  unfold scanDone
  split
  · exact sound.withSweep split (fun _ _ _ _ _ _ _ => Or.inr) ran
  · rename_i scan running
    split
    · rename_i done
      refine sound.publish.withSweep split (fun log _ args _ _ _ _ owes => Or.inr ?_) fun found same => (by cases same)
      rcases owes with admitted | ⟨other, same, ahead⟩
      · exact Or.inl admitted
      · obtain rfl : scan = other := Option.some.inj (running.symm.trans same)
        exact absurd ahead (TokenScan.done_ahead done)
    · exact sound.withSweep split (fun _ _ _ _ _ _ _ => Or.inr) ran

theorem not_owed (quiet : pending w = []) {block : Nat} : ¬ Owed w.sweeps args block :=
  fun owed => owed_pending owed quiet

theorem scanFail_sound (sound : Sound config chain w) {i : Nat} (quiet : pending w = []) : Sound config chain (inSweep i scanFail w) := by
  rcases inSweep_cases i scanFail w with same | ⟨before, sweep, after, split, _, result⟩
  · rw [same]
    exact sound
  rw [result]
  refine sound.withSweep split (fun log _ args _ _ _ _ owes => ?_) fun found same => (by cases same)
  exact absurd ⟨sweep, by rw [split]; simp, owes⟩ (not_owed quiet)

theorem crash_sound (sound : Sound config chain w) (quiet : pending w = []) : Sound config chain ⟨w.store, .idle, []⟩ where
  fromChain := sound.fromChain
  synced := sound.synced
  launched := sound.launched
  bounded := sound.bounded
  covered log member args read valid above behind inScope :=
    Or.inl ((sound.covered log member args read valid above behind inScope).resolve_right (not_owed quiet))
  tail := trivial
  scans _ listed := by cases listed

theorem step_sound (ordered : LaunchedFirst chain) (sound : Sound config chain w) (orderly : Orderly config chain w s) :
    Sound config chain (step config chain w s) := by
  cases s with
  | tailStart head => exact syncLaunchpadTokens_sound sound
  | launchpadWindow hi => exact launchpadWindow_sound ordered sound
  | tailCursor => exact readCursor_sound sound
  | tailWindow hi => exact tailWindow_sound sound
  | repairWindow hi => exact repairWindow_sound sound
  | repairDone => exact repairDone_sound sound
  | tailDone => exact tailDone_sound sound
  | tailFail => exact sound.idle
  | sweepStart deep limit => exact sweepStart_sound sound
  | answer i address issuer => exact answer_sound sound
  | unread i address => exact unread_sound sound
  | scanStart i head => exact admit_sound sound
  | scanWindow i hi => exact scanWindow_sound sound orderly
  | scanDone i => exact scanDone_sound sound
  | scanFail i => exact scanFail_sound sound orderly
  | crash => exact crash_sound sound orderly

end LpTerminal.Catalog.V4Rpc
