import LpTerminal.Catalog.V4Rpc

/-!
What a window of Initialize logs stores, and what a targeted scan still has ahead.
-/

namespace LpTerminal.Catalog.V4Rpc

variable {config : Config} {chain : Chain} {store store' : Store} {log : InitializeLog} {args : InitializeArgs}

/-- The checks of `storeInitialize` on the log alone. -/
def Valid (config : Config) (args : InitializeArgs) (block : Nat) : Prop :=
  validPoolKey args ∧ config.eventPoolId args.currency0 args.currency1 args.fee args.tickSpacing args.hooks = args.id ∧
    block ≤ maxSafeInteger

instance {block : Nat} : Decidable (Valid config args block) := inferInstanceAs (Decidable (_ ∧ _))

def Stored (config : Config) (store : Store) (args : InitializeArgs) (block : Nat) : Prop :=
  store.db.v4Pools.get? args.id = some (eventRow config args block)

def InScope (config : Config) (store : Store) (args : InitializeArgs) : Prop :=
  inV4DirectoryScope config store args.currency0 args.currency1 = true

def FromChain (config : Config) (chain : Chain) (store : Store) : Prop :=
  ∀ row ∈ store.db.v4Pools.rows, ∃ log ∈ chain.initializes, ∃ args, log.args = some args ∧ row = eventRow config args log.blockNumber

def Grew (store store' : Store) : Prop :=
  ∃ db, store' = { store with db := db } ∧ ∀ row ∈ store.db.v4Pools.rows, row ∈ db.v4Pools.rows

theorem Grew.refl (store : Store) : Grew store store := ⟨store.db, rfl, fun _ => id⟩

theorem Grew.trans {middle : Store} (first : Grew store middle) (second : Grew middle store') : Grew store store' := by
  obtain ⟨early, rfl, kept⟩ := first
  obtain ⟨late, rfl, more⟩ := second
  exact ⟨late, rfl, fun row inside => more row (kept row inside)⟩

theorem Grew.scope (grew : Grew store store') : InScope config store' args ↔ InScope config store args := by
  obtain ⟨db, rfl, _⟩ := grew
  exact Iff.rfl

theorem Stored.grew {block : Nat} (stored : Stored config store args block) (grew : Grew store store') : Stored config store' args block := by
  obtain ⟨db, rfl, kept⟩ := grew
  exact Table.get?_of_mem (kept _ (Table.get?_mem stored))

theorem Chain.unique {first second : InitializeLog} {args other : InitializeArgs} (inFirst : first ∈ chain.initializes)
    (inSecond : second ∈ chain.initializes) (read : first.args = some args) (also : second.args = some other) (same : args.id = other.id) :
    args = other ∧ first.blockNumber = second.blockNumber := by
  have apart := List.pairwise_filterMap.mp (List.pairwise_map.mp chain.distinct)
  have symmetric : Std.Symm fun a b : InitializeLog => ∀ x, a.args = some x → ∀ y, b.args = some y → x.id ≠ y.id :=
    ⟨fun _ _ differ x atX y atY => (differ y atY x atX).symm⟩
  by_cases equal : first = second
  · subst equal
    rw [read] at also
    exact ⟨Option.some.inj also, rfl⟩
  · exact absurd same (apart.forall inFirst inSecond equal _ read _ also)

section

variable (fromChain : FromChain config chain store)
include fromChain

section

variable (member : log ∈ chain.initializes)
include member

theorem FromChain.row (read : log.args = some args)
    {row : V4Pool} (found : store.db.v4Pools.get? args.id = some row) : row = eventRow config args log.blockNumber := by
  obtain ⟨other, inside, args', read', rfl⟩ := fromChain row (Table.get?_mem found)
  have same := Table.get?_key found
  obtain ⟨rfl, block⟩ := chain.unique inside member read' read same
  rw [block]

theorem writeInitialize_spec (read : log.args = some args) :
    ∃ db, writeInitialize config args log.blockNumber store = .ok { store with db := db } ∧
      (store.db.v4Pools.get? args.id = none ∧ db.v4Pools = store.db.v4Pools.put (eventRow config args log.blockNumber) ∨
        Stored config store args log.blockNumber ∧ db.v4Pools = store.db.v4Pools) := by
  have key : (eventRow config args log.blockNumber).poolId = args.id := rfl
  unfold writeInitialize v4PoolIsNew
  rw [key]
  cases found : store.db.v4Pools.get? args.id with
  | none =>
    have isNew : v4PoolIsNew (eventRow config args log.blockNumber) store.db = true := by
      unfold v4PoolIsNew
      rw [key, found]
      rfl
    have inserted : ∃ db, insertV4Pool (eventRow config args log.blockNumber) store.db = .ok db ∧
        db.v4Pools = store.db.v4Pools.put (eventRow config args log.blockNumber) := by
      unfold insertV4Pool
      rw [if_pos isNew]
      exact ⟨_, rfl, rfl⟩
    obtain ⟨db, ran, pools⟩ := inserted
    refine ⟨db, ?_, Or.inl ⟨rfl, pools⟩⟩
    rw [Option.isNone_none, if_pos rfl, ran]
    rfl
  | some row =>
    obtain rfl := fromChain.row member read found
    have refilled : ∃ db, setV4EventIdentity args.id args.fee log.blockNumber store.db = .ok db ∧
        db.v4Pools = store.db.v4Pools.put (eventRow config args log.blockNumber) := by
      unfold setV4EventIdentity
      rw [found]
      dsimp only
      rw [if_pos ⟨Or.inr rfl, Or.inr rfl⟩]
      exact ⟨_, rfl, rfl⟩
    obtain ⟨db, ran, pools⟩ := refilled
    refine ⟨db, ?_, Or.inr ⟨found, pools.trans (Table.put_present (Table.get?_mem found))⟩⟩
    rw [if_neg (by simp), ran]
    rfl

theorem storeInitialize_ok {durable : Nat}
    (ran : storeInitialize config durable store log = .ok store') :
    ∃ args, log.args = some args ∧ Grew store store' ∧ FromChain config chain store' ∧
      (InScope config store args → Stored config store' args log.blockNumber) ∧
      ∀ row ∈ store'.db.v4Pools.rows, row ∈ store.db.v4Pools.rows ∨
        row = eventRow config args log.blockNumber ∧ Valid config args log.blockNumber ∧ InScope config store args := by
  unfold storeInitialize at ran
  cases read : log.args with
  | none => rw [read] at ran; cases ran
  | some args =>
    rw [read] at ran
    obtain ⟨keyChecked, ran⟩ := Fallible.then_ok.mp ran
    obtain ⟨idChecked, ran⟩ := Fallible.then_ok.mp ran
    split at ran
    · rename_i inside
      unfold admitInitialize at ran
      obtain ⟨_, ran⟩ := Fallible.then_ok.mp ran
      obtain ⟨safe, ran⟩ := Fallible.then_ok.mp ran
      obtain ⟨_, ran⟩ := Fallible.then_ok.mp ran
      obtain ⟨db, wrote, outcome⟩ := writeInitialize_spec fromChain member read
      rw [wrote] at ran
      cases ran
      have valid : Valid config args log.blockNumber :=
        ⟨Fallible.demand_ok.mp keyChecked, Fallible.demand_ok.mp idChecked, Fallible.demand_ok.mp safe⟩
      refine ⟨args, rfl, ?_⟩
      rcases outcome with ⟨absent, put⟩ | ⟨stored, same⟩
      · have members : ∀ row, row ∈ db.v4Pools.rows →
            row ∈ store.db.v4Pools.rows ∨ row = eventRow config args log.blockNumber := fun row inside => by
          rw [put] at inside
          rcases Table.mem_put.mp inside with fresh | ⟨old, _⟩
          · exact Or.inr fresh
          · exact Or.inl old
        refine ⟨⟨db, rfl, fun row old => ?_⟩, fun row found => ?_, fun _ => ?_, fun row found => ?_⟩
        · rw [put]
          exact Table.mem_put.mpr (Or.inr ⟨old, Table.not_mem_of_get? absent old⟩)
        · rcases members row found with old | fresh
          · exact fromChain row old
          · exact ⟨log, member, args, read, fresh⟩
        · unfold Stored
          dsimp only
          rw [put]
          exact Table.get?_put_same store.db.v4Pools (eventRow config args log.blockNumber)
        · exact (members row found).imp_right fun fresh => ⟨fresh, valid, inside⟩
      · refine ⟨⟨db, rfl, fun row old => by rw [same]; exact old⟩, fun row found => ?_, fun _ => ?_, fun row found => Or.inl ?_⟩
        · exact fromChain row (same ▸ found)
        · unfold Stored
          dsimp only
          rw [same]
          exact stored
        · exact same ▸ found
    · rename_i outside
      cases ran
      exact ⟨args, rfl, Grew.refl store, fromChain, fun inside => absurd inside outside, fun row found => Or.inl found⟩

theorem storeInitialize_total {durable : Nat}
    (read : log.args = some args) (valid : Valid config args log.blockNumber) (later : durable < log.blockNumber) :
    ∃ store', storeInitialize config durable store log = .ok store' := by
  unfold storeInitialize
  rw [read]
  dsimp only
  unfold demand
  rw [Fallible.demand_bind valid.1, Fallible.demand_bind valid.2.1]
  split
  · unfold admitInitialize demand
    rw [Fallible.demand_bind, Fallible.demand_bind valid.2.2, Fallible.demand_bind]
    · obtain ⟨db, wrote, _⟩ := writeInitialize_spec fromChain member read
      exact ⟨_, wrote⟩
    · exact fun behind => absurd behind.2 (by omega)
    · intro row found
      obtain rfl := fromChain.row member read found
      exact ⟨rfl, rfl, rfl, rfl, rfl⟩
  · exact ⟨store, rfl⟩

end

end

variable {currency0 currency1 : Address}

theorem demand_passes {condition : Prop} [Decidable condition] {message : String} {α : Type} {next : Unit → Except ScanError α}
    {id : Digest} {createdBlock cursor : Nat}
    (threw : (demand condition message >>= next) = .error (.behindCursor id createdBlock cursor currency0 currency1)) :
    next () = .error (.behindCursor id createdBlock cursor currency0 currency1) := by
  unfold demand Fallible.demand at threw
  split at threw
  · exact threw
  · cases threw

theorem storeInitialize_behind {durable createdBlock cursor : Nat} {id : Digest}
    (fromChain : FromChain config chain store) (member : log ∈ chain.initializes)
    (threw : storeInitialize config durable store log = .error (.behindCursor id createdBlock cursor currency0 currency1)) :
    log.blockNumber ≤ durable := by
  unfold storeInitialize at threw
  split at threw
  · cases threw
  · rename_i args read
    have threw := demand_passes (demand_passes threw)
    split at threw
    · unfold admitInitialize at threw
      have threw := demand_passes (demand_passes threw)
      unfold Fallible.demand at threw
      split at threw
      · obtain ⟨db, wrote, _⟩ := writeInitialize_spec fromChain member read
        rw [Fallible.ok_bind, wrote] at threw
        cases threw
      · rename_i behind
        exact (not_not.mp behind).2
    · cases threw

structure Window (config : Config) (chain : Chain) (rows : List InitializeLog) (store s : Store) (rest : List InitializeLog) : Prop where
  grew : Grew store s
  fromChain : FromChain config chain s
  stored : ∀ log ∈ rows, log ∈ rest ∨ ∀ args, log.args = some args → InScope config store args → Stored config s args log.blockNumber
  fresh : ∀ row ∈ s.db.v4Pools.rows, row ∈ store.db.v4Pools.rows ∨ ∃ log ∈ rows, ∃ args, log.args = some args ∧
    row = eventRow config args log.blockNumber ∧ Valid config args log.blockNumber ∧ InScope config store args

variable {rows : List InitializeLog}

theorem storeWindow_ok {durable : Nat} (fromChain : FromChain config chain store)
    (members : ∀ log ∈ rows, log ∈ chain.initializes) (ran : storeWindow config durable rows store = .ok store') :
    Window config chain rows store store' [] := by
  have each : ∀ s log rest s', Window config chain rows store s (log :: rest) ∧ (∀ other ∈ log :: rest, other ∈ rows) →
      storeInitialize config durable s log = .ok s' → Window config chain rows store s' rest ∧ ∀ log ∈ rest, log ∈ rows := by
    rintro s log rest s' ⟨before, listed⟩ one
    have inside := listed log List.mem_cons_self
    obtain ⟨args, read, grew, fromChain', stored, fresh⟩ := storeInitialize_ok before.fromChain (members log inside) one
    refine ⟨⟨before.grew.trans grew, fromChain', fun other listed' => ?_, fun row found => ?_⟩,
      fun other later => listed other (List.mem_cons_of_mem _ later)⟩
    · rcases before.stored other listed' with waiting | early
      · rcases List.mem_cons.mp waiting with rfl | later
        · refine Or.inr fun args' read' inScope => ?_
          obtain rfl : args' = args := Option.some.inj (read'.symm.trans read)
          exact stored (before.grew.scope.mpr inScope)
        · exact Or.inl later
      · exact Or.inr fun args' read' inScope => (early args' read' inScope).grew grew
    · rcases fresh row found with old | ⟨built, valid, inScope⟩
      · exact before.fresh row old
      · exact Or.inr ⟨log, inside, args, read, built, valid, before.grew.scope.mp inScope⟩
  have start : Window config chain rows store store rows :=
    ⟨Grew.refl store, fromChain, fun _ => Or.inl, fun _ => Or.inl⟩
  exact (@Fallible.foldlM_invariant _ _ _ (storeInitialize config durable)
    (fun s rest => Window config chain rows store s rest ∧ ∀ log ∈ rest, log ∈ rows) each _ _ _ ⟨start, fun _ => id⟩ ran).1

theorem storeWindow_total (fromChain : FromChain config chain store)
    (members : ∀ log ∈ rows, log ∈ chain.initializes)
    (valid : ∀ log ∈ rows, 0 < log.blockNumber ∧ ∃ args, log.args = some args ∧ Valid config args log.blockNumber) :
    ∃ store', storeWindow config noCursor rows store = .ok store' := by
  induction rows generalizing store with
  | nil => exact ⟨store, rfl⟩
  | cons log rest ih =>
    obtain ⟨positive, args, read, fine⟩ := valid log List.mem_cons_self
    have member := members log List.mem_cons_self
    obtain ⟨middle, one⟩ := storeInitialize_total fromChain member read fine positive
    obtain ⟨_, _, _, fromChain', _⟩ := storeInitialize_ok fromChain member one
    unfold storeWindow
    rw [List.foldlM_cons]
    have one : storeInitialize config noCursor store log = .ok middle := one
    rw [one, Fallible.ok_bind]
    exact ih fromChain' (fun other inside => members other (List.mem_cons_of_mem _ inside))
      fun other inside => valid other (List.mem_cons_of_mem _ inside)

theorem storeWindow_behind {durable createdBlock cursor : Nat} {id : Digest}
    (fromChain : FromChain config chain store) (members : ∀ log ∈ rows, log ∈ chain.initializes)
    (threw : storeWindow config durable rows store = .error (.behindCursor id createdBlock cursor currency0 currency1)) :
    ∃ log ∈ rows, log.blockNumber ≤ durable := by
  induction rows generalizing store with
  | nil => cases threw
  | cons log rest ih =>
    have member := members log List.mem_cons_self
    unfold storeWindow at threw
    rw [List.foldlM_cons] at threw
    cases told : storeInitialize config durable store log with
    | error e =>
      rw [told] at threw
      cases threw
      exact ⟨log, List.mem_cons_self, storeInitialize_behind fromChain member told⟩
    | ok middle =>
      rw [told, Fallible.ok_bind] at threw
      obtain ⟨_, _, _, fromChain', _⟩ := storeInitialize_ok fromChain member told
      obtain ⟨other, inside, behind⟩ := ih fromChain' (fun other inside => members other (List.mem_cons_of_mem _ inside)) threw
      exact ⟨other, List.mem_cons_of_mem _ inside, behind⟩

theorem mem_initializeLogs {lo hi : Nat} :
    log ∈ initializeLogs chain lo hi ↔ log ∈ chain.initializes ∧ lo ≤ log.blockNumber ∧ log.blockNumber ≤ hi := by
  unfold initializeLogs
  rw [List.mem_filter, decide_eq_true_eq]

def Names (args : InitializeArgs) (token : Address) : Prop := args.currency0 = token ∨ args.currency1 = token

namespace TokenScan

variable {scan : TokenScan} {block : Nat}

def Ahead (scan : TokenScan) (args : InitializeArgs) (block : Nat) : Prop :=
  scan.fromBlock ≤ block ∧ block ≤ scan.toBlock ∧ match scan.side with
    | .currency0 => args.currency0 = scan.token ∧ scan.lo ≤ block ∨ args.currency1 = scan.token
    | .currency1 => args.currency1 = scan.token ∧ scan.lo ≤ block

theorem settle_token : scan.settle.token = scan.token := by
  unfold settle
  split <;> rfl

theorem settle_range : scan.settle.fromBlock = scan.fromBlock ∧ scan.settle.toBlock = scan.toBlock := by
  unfold settle
  split <;> exact ⟨rfl, rfl⟩

theorem settle_lo (started : scan.fromBlock ≤ scan.lo) : scan.fromBlock ≤ scan.settle.lo := by
  unfold settle
  split
  · exact le_refl _
  · exact started

theorem settle_ahead : scan.settle.Ahead args block ↔ scan.Ahead args block := by
  unfold settle
  split
  · rename_i ended
    obtain ⟨side, past⟩ := ended
    unfold Ahead
    dsimp only
    rw [side]
    constructor
    · rintro ⟨from_, to_, second, _⟩
      exact ⟨from_, to_, Or.inr second⟩
    · rintro ⟨from_, to_, first | second⟩
      · omega
      · exact ⟨from_, to_, second, from_⟩
  · exact Iff.rfl

theorem start_ahead {token : Address} {lower upper : Nat} (names : Names args token) (above : lower ≤ block) (below : block ≤ upper) :
    (start token lower upper).Ahead args block := by
  refine settle_ahead.mpr ⟨above, below, ?_⟩
  rcases names with first | second
  · exact Or.inl ⟨first, above⟩
  · exact Or.inr second

theorem done_ahead (done : scan.done) : ¬ scan.Ahead args block := by
  rintro ⟨_, below, later⟩
  obtain ⟨side, past⟩ := done
  rw [side] at later
  dsimp only at later
  omega

theorem window_ahead {hi : Nat} {log : InitializeLog} (read : log.args = some args) (ahead : scan.Ahead args log.blockNumber) :
    (scan.lo ≤ log.blockNumber ∧ log.blockNumber ≤ hi ∧ scan.asks log = true) ∨
      ({ scan with lo := hi + 1 } : TokenScan).settle.Ahead args log.blockNumber := by
  obtain ⟨above, below, later⟩ := ahead
  cases side : scan.side with
  | currency0 =>
    rw [side] at later
    rcases later with ⟨named, reached⟩ | named
    · by_cases within : log.blockNumber ≤ hi
      · refine Or.inl ⟨reached, within, ?_⟩
        unfold asks
        rw [read, side]
        simpa using named
      · refine Or.inr (settle_ahead.mpr ⟨above, below, ?_⟩)
        exact Or.inl ⟨named, by dsimp only; omega⟩
    · refine Or.inr (settle_ahead.mpr ⟨above, below, ?_⟩)
      exact Or.inr named
  | currency1 =>
    rw [side] at later
    obtain ⟨named, reached⟩ := later
    by_cases within : log.blockNumber ≤ hi
    · refine Or.inl ⟨reached, within, ?_⟩
      unfold asks
      rw [read, side]
      simpa using named
    · refine Or.inr (settle_ahead.mpr ⟨above, below, ?_⟩)
      exact ⟨named, by dsimp only; omega⟩

end TokenScan

end LpTerminal.Catalog.V4Rpc
