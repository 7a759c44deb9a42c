import LpTerminal.Catalog.Evolution
import LpTerminal.Lib.Durable

/-!
The sync of a v2 venue: pairs of the factory's array in batches, each published with its durable cursor in one transaction.
After any runs of it the rows are the pairs below the cursor.
-/

namespace LpTerminal.Catalog.V2Sync

inductive V2Label
  | univ2
  | pancakev2
deriving DecidableEq, Repr

def V2Label.proto : V2Label → PoolProto
  | .univ2 => .univ2
  | .pancakev2 => .pancakev2

def V2Label.feePpm : V2Label → Nat
  | .univ2 => 3000
  | .pancakev2 => 2500

/-- What the factories and their pairs answer. An array only grows, and a contract is in one slot of one factory. -/
structure Chain where
  allPairs : V2Label → Nat → Address
  token0 : Address → Address
  token1 : Address → Address
  distinct : ∀ {first second : V2Label} {i j : Nat}, allPairs first i = allPairs second j → first = second ∧ i = j

/-- The `kv` keys of a venue; their only writers store `String(n)`. -/
structure V2Keys where
  count : Option Nat
  factoryCount : Option Nat

structure V2Store where
  db : Database
  keys : V2Label → V2Keys

def V2Store.fresh : V2Store := ⟨Database.fresh, fun _ => ⟨none, none⟩⟩

inductive SyncError
  /-- The count could not be read. -/
  | transport
  /-- The process ended while it awaited an answer. -/
  | stopped
  | failed (message : String)

section Sync

variable (chain : Chain)

def Foreign : CatalogOp → Prop
  | .insertPool new => new.proto.isV2 = false ∧ ∀ label i, new.address ≠ chain.allPairs label i
  | .deletePools selects => ∀ pool : Pool, selects pool = true → pool.proto.isV2 = false
  | .updatePoolIdentity address proto _ _ => proto.isV2 = false ∧ ∀ label i, address ≠ chain.allPairs label i
  | _ => True

abbrev Other := { op : CatalogOp // Foreign chain op }

/-- The reads of a batch that fail, by their position in the multicall, and what others commit meanwhile. -/
structure BatchReads where
  meanwhile : List (List (Other chain))
  pairFails : Nat → Bool
  tokenFails : Nat → Bool

/-- One call with what it reads; where the batches end, the process stopped. -/
structure Call where
  meanwhile : List (List (Other chain))
  allPairsLength : Option Nat
  batches : List (BatchReads chain)

def others (transactions : List (List (Other chain))) (store : V2Store) : V2Store :=
  { store with db := transactions.foldl (fun db ops => transact db (ops.map Subtype.val)) store.db }

/-- `Number(kvGet(venue.countKey))`, where it is a safe integer. -/
def known (keys : V2Keys) : Nat := (keys.count.filter (· ≤ maxSafeInteger)).getD 0

/-- `mc` answers each call at its position. -/
def mc (fails : Nat → Bool) (answers : List Address) : List (Option Address) :=
  answers.mapIdx fun position answer => if fails position then none else some answer

def ok (results : List (Option Address)) (position : Nat) : Option Address := (results[position]?).join

def readPairs (label : V2Label) (known n : Nat) (fails : Nat → Bool) : List (Option Address) :=
  let pairRes := mc fails ((List.range n).map fun i => chain.allPairs label (known + i))
  (List.range n).map fun i => ok pairRes i

def readTokens (pairs : List Address) (fails : Nat → Bool) : List (Option Address × Option Address) :=
  let tokRes := mc fails (pairs.flatMap fun p => [chain.token0 p, chain.token1 p])
  (List.range pairs.length).map fun i => (ok tokRes (i * 2), ok tokRes (i * 2 + 1))

/-- The answers, where none is `undefined`. -/
def resolved {α : Type} : List (Option α) → Option (List α)
  | [] => some []
  | none :: _ => none
  | some answer :: rest => (resolved rest).map (answer :: ·)

def bothTokens (tokens : Option Address × Option Address) : Option (Address × Address) := tokens.1.bind fun token0 => tokens.2.map fun token1 => (token0, token1)

structure Syncing where
  known : Nat
  added : Nat
  fresh : List Address

def pairPool (label : V2Label) (pairIndex : Nat) (address token0 token1 : Address) : Pool where
  address := address
  proto := label.proto
  token0 := token0
  token1 := token1
  feePpm := label.feePpm
  createdBlock := none
  pairIndex := some pairIndex
  snapshotGeneration := none
  catalogSeq := none

def addPair (freshLimit : Nat) (label : V2Label) (known : Nat) (s : Database × Nat × List Address)
    (row : Nat × Address × Address × Address) : Database × Nat × List Address :=
  let pool := pairPool label (known + row.1) row.2.1 row.2.2.1 row.2.2.2
  (insertPool pool s.1,
    if poolIsNew pool s.1 then s.2.1 + 1 else s.2.1,
    if poolIsNew pool s.1 ∧ s.2.2.length < freshLimit then s.2.2 ++ [row.2.1] else s.2.2)

def publishBatch (freshLimit : Nat) (label : V2Label) (pairs : List Address) (tokens : List (Address × Address)) (s : Syncing)
    (store : V2Store) : V2Store × Syncing :=
  let rows := (List.range pairs.length).zip (pairs.zip tokens)
  let (db, added, fresh) := rows.foldl (addPair freshLimit label s.known) (store.db, s.added, s.fresh)
  let next := s.known + pairs.length
  ({ db := db, keys := Function.update store.keys label ⟨some next, some next⟩ }, ⟨next, added, fresh⟩)

abbrev Sync := Durable SyncError V2Store

/-- `undefined` somewhere, and the loop breaks. -/
def syncBatch (freshLimit : Nat) (label : V2Label) (count : Nat) (s : Syncing) (reads : BatchReads chain) : Sync (Option Syncing) := do
  Durable.write (others chain reads.meanwhile)
  match resolved (readPairs chain label s.known (min 2000 (count - s.known)) reads.pairFails) with
  | none => return none
  | some pairs =>
    match resolved ((readTokens chain pairs reads.tokenFails).map bothTokens) with
    | none => return none
    | some tokens =>
      let store ← Durable.read
      let published := publishBatch freshLimit label pairs tokens s store
      Durable.write fun _ => published.1
      return some published.2

def syncLoop (freshLimit : Nat) (label : V2Label) (count : Nat) : Syncing → List (BatchReads chain) → Sync Syncing
  | s, [] => if s.known < count then Durable.fail .stopped else pure s
  | s, reads :: rest =>
    if s.known < count then do
      match ← syncBatch chain freshLimit label count s reads with
      | none => return s
      | some s => syncLoop freshLimit label count s rest
    else pure s

def setFactoryCount (label : V2Label) (count : Nat) (store : V2Store) : V2Store :=
  { store with keys := Function.update store.keys label { store.keys label with factoryCount := some count } }

def syncV2Venue (freshLimit : Nat) (label : V2Label) (call : Call chain) : Sync (Nat × List Address) := do
  Durable.write (others chain call.meanwhile)
  match call.allPairsLength with
  | none => Durable.fail .transport
  | some count =>
    if maxSafeInteger < count then Durable.fail (.failed s!"{label.proto.text} factory returned invalid allPairsLength")
    else do
      let store ← Durable.read
      let known := known (store.keys label)
      if count < known then
        Durable.fail (.failed s!"{label.proto.text} durable cursor {known} is ahead of factory allPairsLength {count}; refusing a destructive rewind")
      else if count = known then
        Durable.write (setFactoryCount label count)
        return (0, [])
      else do
        let s ← syncLoop chain freshLimit label count ⟨known, 0, []⟩ call.batches
        if s.known ≠ count then
          Durable.fail (.failed s!"{label.proto.text} catalog sync incomplete: durable cursor {s.known}/{count}; refusing to mark the index ready")
        else return (s.added, s.fresh)

end Sync

variable {chain : Chain} {db db' : Database} {upTo : V2Label → Nat} {label : V2Label}

structure Carries (chain : Chain) (label : V2Label) (i : Nat) (pool : Pool) : Prop where
  address : pool.address = chain.allPairs label i
  proto : pool.proto = label.proto
  token0 : pool.token0 = chain.token0 (chain.allPairs label i)
  token1 : pool.token1 = chain.token1 (chain.allPairs label i)
  feePpm : pool.feePpm = label.feePpm
  pairIndex : pool.pairIndex = some i

def Elsewhere (chain : Chain) (pool : Pool) : Prop := pool.proto.isV2 = false ∧ ∀ label i, pool.address ≠ chain.allPairs label i

structure Directory (chain : Chain) (db : Database) (upTo : V2Label → Nat) : Prop where
  sound : ∀ pool ∈ db.pools.rows, Elsewhere chain pool ∨ ∃ label, ∃ i < upTo label, Carries chain label i pool
  complete : ∀ label, ∀ i < upTo label, ∃ pool ∈ db.pools.rows, Carries chain label i pool

theorem proto_isV2 (label : V2Label) : label.proto.isV2 = true := by cases label <;> rfl

theorem proto_inj {first second : V2Label} (same : first.proto = second.proto) : first = second := by
  cases first <;> cases second <;> first | rfl | cases same

section

variable (directory : Directory chain db upTo)
include directory

theorem Directory.frame
    (kept : ∀ pool ∈ db.pools.rows, pool.proto.isV2 = true → pool ∈ db'.pools.rows)
    (other : ∀ pool ∈ db'.pools.rows, Elsewhere chain pool ∨ pool ∈ db.pools.rows) : Directory chain db' upTo where
  sound pool member := (other pool member).elim Or.inl (directory.sound pool)
  complete label i below := by
    obtain ⟨pool, member, carries⟩ := directory.complete label i below
    refine ⟨pool, kept pool member ?_, carries⟩
    rw [carries.proto]
    exact proto_isV2 label

theorem Directory.same (same : SamePools db db') : Directory chain db' upTo := by
  refine directory.frame (fun pool member _ => ?_) fun pool member => Or.inr ?_
  · rw [same.1]
    exact member
  · rw [← same.1]
    exact member

theorem foreign_directory {op : CatalogOp} (foreign : Foreign chain op) (ran : op.apply db = .ok db') :
    Directory chain db' upTo := by
  cases op with
  | insertPool new =>
    cases ran
    obtain ⟨-, stored⟩ := insertPool_pools db new
    split at stored
    · rename_i isNew
      obtain ⟨stamp, pools⟩ := stored
      simp only [poolIsNew, Bool.and_eq_true, Option.isNone_iff_eq_none] at isNew
      refine directory.frame (fun pool member _ => ?_) fun pool member => ?_
      · rw [pools]
        exact Table.mem_put.mpr (Or.inr ⟨member, Table.not_mem_of_get? isNew.1 member⟩)
      · rw [pools] at member
        rcases Table.mem_put.mp member with rfl | ⟨old, -⟩
        · exact Or.inl foreign
        · exact Or.inr old
    · rw [stored]
      exact directory
  | deletePools selects =>
    cases ran
    refine directory.frame (fun pool member v2 => mem_deletePools.mpr ⟨member, ?_⟩) fun pool member => Or.inr (mem_deletePools.mp member).1
    by_contra selected
    have none := foreign pool (by simpa using selected)
    rw [v2] at none
    cases none
  | updatePoolIdentity address proto token0 token1 =>
    obtain ⟨aside, apart⟩ := foreign
    unfold CatalogOp.apply updatePoolIdentity at ran
    cases read : db.pools.get? address with
    | none =>
      simp only [read] at ran
      cases ran
      exact directory
    | some old =>
      simp only [read] at ran
      split at ran
      · cases ran
      · cases ran
        have key := Table.get?_key read
        refine directory.frame (fun pool member v2 => Table.mem_put.mpr (Or.inr ⟨member, fun same => ?_⟩)) fun pool member => ?_
        · -- the row that changes is of no v2 venue
          obtain rfl := Table.eq_of_key member (Table.get?_mem read) same
          rcases directory.sound pool member with ⟨other, -⟩ | ⟨label, i, -, carries⟩
          · rw [v2] at other
            cases other
          · exact apart label i (key.symm.trans carries.address)
        · rcases Table.mem_put.mp member with rfl | ⟨kept, -⟩
          · exact Or.inl ⟨aside, fun label i same => apart label i (key.symm.trans same)⟩
          · exact Or.inr kept
  | setPoolSnapshotGeneration address proto generation =>
    unfold CatalogOp.apply setPoolSnapshotGeneration at ran
    dsimp only at ran
    split at ran
    · cases ran
    · rename_i concentrated
      cases read : db.pools.get? address with
      | none =>
        simp only [read] at ran
        cases ran
      | some old =>
        simp only [read] at ran
        split at ran
        · rename_i own
          cases ran
          have aside : old.proto.isV2 = false := by
            rw [own]
            cases proto <;> simp_all [PoolProto.isV2]
          have elsewhere : Elsewhere chain old := by
            rcases directory.sound old (Table.get?_mem read) with elsewhere | ⟨label, i, -, carries⟩
            · exact elsewhere
            · rw [carries.proto, proto_isV2] at aside
              cases aside
          refine directory.frame (fun pool member v2 => Table.mem_put.mpr (Or.inr ⟨member, fun same => ?_⟩)) fun pool member => ?_
          · obtain rfl := Table.eq_of_key member (Table.get?_mem read) same
            rw [v2] at aside
            cases aside
          · rcases Table.mem_put.mp member with rfl | ⟨kept, -⟩
            · exact Or.inl elsewhere
            · exact Or.inr kept
        · cases ran
  | _ => exact directory.same (apply_same rfl ran)

theorem others_directory {transactions : List (List (Other chain))} :
    Directory chain (transactions.foldl (fun db ops => transact db (ops.map Subtype.val)) db) upTo := by
  induction transactions generalizing db with
  | nil => exact directory
  | cons ops rest ih =>
    refine ih ?_
    show Directory chain (transact db (ops.map Subtype.val)) upTo
    unfold transact
    split
    · rename_i ran
      rw [List.foldlM_map] at ran
      exact Fallible.foldlM_keeps (fun _ op _ before one => foreign_directory before op.2 one) directory ran
    · exact directory

end

def nextPair (chain : Chain) (label : V2Label) (i : Nat) : Pool :=
  pairPool label i (chain.allPairs label i) (chain.token0 (chain.allPairs label i)) (chain.token1 (chain.allPairs label i))

theorem nextPair_new (directory : Directory chain db upTo) : poolIsNew (nextPair chain label (upTo label)) db = true := by
  unfold poolIsNew
  rw [Bool.and_eq_true, Option.isNone_iff_eq_none, Bool.not_eq_true']
  constructor
  · cases read : db.pools.get? (chain.allPairs label (upTo label)) with
    | none => exact read
    | some pool =>
      have key := Table.get?_key read
      rcases directory.sound pool (Table.get?_mem read) with ⟨-, apart⟩ | ⟨other, i, below, carries⟩
      · exact absurd key (apart label (upTo label))
      · obtain ⟨rfl, rfl⟩ := chain.distinct (carries.address.symm.trans key)
        exact absurd below (lt_irrefl _)
  · unfold slotTaken
    rw [Bool.eq_false_iff]
    intro taken
    rw [Bool.and_eq_true, List.any_eq_true] at taken
    obtain ⟨-, pool, member, same⟩ := taken
    rw [Bool.and_eq_true, Bool.and_eq_true, decide_eq_true_eq, decide_eq_true_eq] at same
    obtain ⟨⟨proto, index⟩, -⟩ := same
    change pool.proto = label.proto at proto
    change pool.pairIndex = some (upTo label) at index
    rcases directory.sound pool member with ⟨other, -⟩ | ⟨other, i, below, carries⟩
    · rw [proto, proto_isV2] at other
      cases other
    · obtain rfl := proto_inj (carries.proto.symm.trans proto)
      rw [carries.pairIndex] at index
      cases index
      exact absurd below (lt_irrefl _)

theorem nextPair_carries (stamp : Option Nat) (i : Nat) : Carries chain label i { nextPair chain label i with catalogSeq := stamp } :=
  ⟨rfl, rfl, rfl, rfl, rfl, rfl⟩

theorem insert_nextPair (directory : Directory chain db upTo) :
    Directory chain (insertPool (nextPair chain label (upTo label)) db) (Function.update upTo label (upTo label + 1)) := by
  obtain ⟨-, stored⟩ := insertPool_pools db (nextPair chain label (upTo label))
  have isNew := @nextPair_new chain db upTo label directory
  rw [if_pos isNew] at stored
  obtain ⟨stamp, pools⟩ := stored
  simp only [poolIsNew, Bool.and_eq_true, Option.isNone_iff_eq_none] at isNew
  have grown : ∀ other, upTo other ≤ Function.update upTo label (upTo label + 1) other := by
    intro other
    unfold Function.update
    split
    · rename_i same
      subst same
      exact Nat.le_succ _
    · exact le_rfl
  constructor
  · intro pool member
    rw [pools] at member
    rcases Table.mem_put.mp member with rfl | ⟨old, -⟩
    · refine Or.inr ⟨label, upTo label, ?_, nextPair_carries stamp _⟩
      rw [Function.update_self]
      exact Nat.lt_succ_self _
    · rcases directory.sound pool old with elsewhere | ⟨other, i, below, carries⟩
      · exact Or.inl elsewhere
      · exact Or.inr ⟨other, i, below.trans_le (grown other), carries⟩
  · intro other i below
    rw [pools]
    by_cases own : other = label ∧ i = upTo label
    · obtain ⟨rfl, rfl⟩ := own
      exact ⟨_, Table.mem_put.mpr (Or.inl rfl), nextPair_carries stamp _⟩
    · have before : i < upTo other := by
        unfold Function.update at below
        split at below
        · rename_i same
          subst same
          have apart : i ≠ upTo other := fun same => own ⟨rfl, same⟩
          change i < upTo other + 1 at below
          omega
        · exact below
      obtain ⟨pool, member, carries⟩ := directory.complete other i before
      exact ⟨pool, Table.mem_put.mpr (Or.inr ⟨member, Table.not_mem_of_get? isNew.1 member⟩), carries⟩

theorem resolved_some {ι α : Type} {items : List ι} {read : ι → Option α} {answer : ι → α}
    (all : ∀ item ∈ items, read item = some (answer item)) : resolved (items.map read) = some (items.map answer) := by
  induction items with
  | nil => rfl
  | cons item rest ih =>
    obtain ⟨own, later⟩ := List.forall_mem_cons.mp all
    rw [List.map_cons, List.map_cons, own]
    unfold resolved
    rw [ih later]
    rfl

theorem resolved_none {ι α : Type} {items : List ι} {read : ι → Option α} (some' : ∃ item ∈ items, read item = none) :
    resolved (items.map read) = none := by
  induction items with
  | nil =>
    obtain ⟨item, member, -⟩ := some'
    cases member
  | cons item rest ih =>
    obtain ⟨failed, member, undefined⟩ := some'
    rw [List.map_cons]
    cases own : read item with
    | none => rfl
    | some answer =>
      unfold resolved
      rcases List.mem_cons.mp member with rfl | later
      · rw [own] at undefined
        cases undefined
      · rw [ih ⟨failed, later, undefined⟩]
        rfl

variable {fails : Nat → Bool}

theorem ok_mc {answers : List Address} {position : Nat} :
    ok (mc fails answers) position = if fails position then none else answers[position]? := by
  unfold ok mc
  rw [List.getElem?_mapIdx]
  cases answers[position]? with
  | none => simp
  | some answer =>
    dsimp only [Option.map_some, Option.join_some]

theorem readPairs_eq {known n : Nat} :
    readPairs chain label known n fails = (List.range n).map fun i => if fails i then none else some (chain.allPairs label (known + i)) := by
  unfold readPairs
  refine List.map_congr_left fun i member => ?_
  rw [ok_mc, List.getElem?_map, List.getElem?_range (List.mem_range.mp member)]
  rfl

theorem tokens_get {first second : Address → Address} {pairs : List Address} {i : Nat} :
    (pairs.flatMap fun p => [first p, second p])[i * 2]? = pairs[i]?.map first ∧
      (pairs.flatMap fun p => [first p, second p])[i * 2 + 1]? = pairs[i]?.map second := by
  induction pairs generalizing i with
  | nil => exact ⟨rfl, rfl⟩
  | cons p rest ih =>
    cases i with
    | zero => exact ⟨rfl, rfl⟩
    | succ i =>
      rw [List.flatMap_cons, show (i + 1) * 2 = i * 2 + 2 by omega, show i * 2 + 2 + 1 = i * 2 + 1 + 2 by omega]
      exact ih

theorem readTokens_eq {pairs : List Address} :
    (readTokens chain pairs fails).map bothTokens = (List.range pairs.length).map fun i =>
      if fails (i * 2) || fails (i * 2 + 1) then none else pairs[i]?.map fun pair => (chain.token0 pair, chain.token1 pair) := by
  unfold readTokens
  rw [List.map_map]
  refine List.map_congr_left fun i member => ?_
  obtain ⟨pair, known⟩ : ∃ pair, pairs[i]? = some pair := ⟨_, List.getElem?_eq_getElem (List.mem_range.mp member)⟩
  obtain ⟨first, second⟩ := @tokens_get chain.token0 chain.token1 pairs i
  dsimp only [Function.comp, bothTokens]
  rw [ok_mc, ok_mc, first, second, known]
  cases fails (i * 2) <;> cases fails (i * 2 + 1) <;> rfl

/-- Some read of the first `n` pairs fails. -/
def Unresolved (n : Nat) (reads : BatchReads chain) : Prop :=
  ∃ i < n, (reads.pairFails i || reads.tokenFails (i * 2) || reads.tokenFails (i * 2 + 1)) = true

variable {freshLimit count : Nat} {s : Syncing} {reads : BatchReads chain} {store : V2Store}

theorem batch_unresolved (failed : Unresolved (min 2000 (count - s.known)) reads) :
    (syncBatch chain freshLimit label count s reads).run store = (.ok none, others chain reads.meanwhile store) := by
  obtain ⟨i, inside, failed⟩ := failed
  unfold syncBatch
  rw [Durable.run_write_bind, readPairs_eq]
  by_cases pairs : ∃ j ∈ List.range (min 2000 (count - s.known)),
      (if reads.pairFails j then none else some (chain.allPairs label (s.known + j))) = none
  · rw [resolved_none pairs]
    rfl
  · have present : ∀ j ∈ List.range (min 2000 (count - s.known)), reads.pairFails j = false := by
      intro j member
      by_contra fails
      exact pairs ⟨j, member, if_pos (by simpa using fails)⟩
    rw [@resolved_some _ _ _ _ (fun j => chain.allPairs label (s.known + j)) fun j member => by rw [present j member]; rfl]
    dsimp only
    rw [readTokens_eq, resolved_none]
    · rfl
    · rw [List.length_map, List.length_range]
      refine ⟨i, List.mem_range.mpr inside, if_pos ?_⟩
      rw [present i (List.mem_range.mpr inside), Bool.false_or] at failed
      exact failed

theorem batch_resolved (read : ¬ Unresolved (min 2000 (count - s.known)) reads) :
    (syncBatch chain freshLimit label count s reads).run store =
      let pairs := (List.range (min 2000 (count - s.known))).map fun i => chain.allPairs label (s.known + i)
      let published := publishBatch freshLimit label pairs (pairs.map fun pair => (chain.token0 pair, chain.token1 pair)) s
        (others chain reads.meanwhile store)
      (.ok (some published.2), published.1) := by
  have present : ∀ i < min 2000 (count - s.known), reads.pairFails i = false ∧ (reads.tokenFails (i * 2) || reads.tokenFails (i * 2 + 1)) = false := by
    intro i inside
    have all : (reads.pairFails i || reads.tokenFails (i * 2) || reads.tokenFails (i * 2 + 1)) = false := by
      rw [Bool.eq_false_iff]
      exact fun fails => read ⟨i, inside, fails⟩
    rw [Bool.or_assoc, Bool.or_eq_false_iff] at all
    exact all
  unfold syncBatch
  rw [Durable.run_write_bind, readPairs_eq,
    @resolved_some _ _ _ _ (fun j => chain.allPairs label (s.known + j)) fun j member => by
      rw [(present j (List.mem_range.mp member)).1]; rfl]
  dsimp only
  have tokens : resolved ((readTokens chain ((List.range (min 2000 (count - s.known))).map fun j => chain.allPairs label (s.known + j)) reads.tokenFails).map
      bothTokens) = some ((List.range (min 2000 (count - s.known))).map fun i =>
        (chain.token0 (chain.allPairs label (s.known + i)), chain.token1 (chain.allPairs label (s.known + i)))) := by
    rw [readTokens_eq, List.length_map, List.length_range]
    refine resolved_some fun i member => ?_
    rw [if_neg (by rw [(present i (List.mem_range.mp member)).2]; decide), List.getElem?_map, List.getElem?_range (List.mem_range.mp member)]
    rfl
  rw [tokens, List.map_map]
  rfl

theorem pairs_directory {known : Nat} {added : Nat} {fresh : List Address} (directory : Directory chain db (Function.update upTo label known)) (n : Nat) :
    Directory chain (((List.range n).map fun i => (i, chain.allPairs label (known + i), chain.token0 (chain.allPairs label (known + i)),
      chain.token1 (chain.allPairs label (known + i)))).foldl (addPair freshLimit label known) (db, added, fresh)).1 (Function.update upTo label (known + n)) := by
  induction n with
  | zero => exact directory
  | succ n ih =>
    rw [List.range_succ, List.map_append, List.foldl_append]
    have one := @insert_nextPair chain _ _ label ih
    rw [Function.update_self, Function.update_idem] at one
    exact one

theorem publish_directory (directory : Directory chain store.db (Function.update upTo label s.known)) (n : Nat) :
    let pairs := (List.range n).map fun i => chain.allPairs label (s.known + i)
    let published := publishBatch freshLimit label pairs (pairs.map fun pair => (chain.token0 pair, chain.token1 pair)) s store
    published.2.known = s.known + n ∧ published.1.keys = Function.update store.keys label ⟨some (s.known + n), some (s.known + n)⟩ ∧
      Directory chain published.1.db (Function.update upTo label (s.known + n)) := by
  have rows : (List.range n).zip (((List.range n).map fun i => chain.allPairs label (s.known + i)).zip
      (((List.range n).map fun i => chain.allPairs label (s.known + i)).map fun pair => (chain.token0 pair, chain.token1 pair))) =
      (List.range n).map fun i => (i, chain.allPairs label (s.known + i), chain.token0 (chain.allPairs label (s.known + i)),
        chain.token1 (chain.allPairs label (s.known + i))) := by
    rw [List.map_map, List.zip_map', show (List.range n).zip ((List.range n).map _) = ((List.range n).map id).zip ((List.range n).map _) by rw [List.map_id],
      List.zip_map']
    rfl
  have after := @pairs_directory chain store.db upTo label freshLimit s.known s.added s.fresh directory n
  dsimp only
  unfold publishBatch
  rw [List.length_map, List.length_range, rows]
  exact ⟨rfl, rfl, after⟩

def Settled (chain : Chain) (store : V2Store) : Prop := Directory chain store.db fun label => known (store.keys label)

theorem others_settled {transactions : List (List (Other chain))} (settled : Settled chain store) :
    Settled chain (others chain transactions store) :=
  others_directory settled

theorem batch_settled (settled : Settled chain store) (at' : known (store.keys label) = s.known) (going : s.known < count) (safe : count ≤ maxSafeInteger)
    (read : ¬ Unresolved (min 2000 (count - s.known)) reads) :
    ∃ next store', (syncBatch chain freshLimit label count s reads).run store = (.ok (some next), store') ∧ Settled chain store' ∧
      known (store'.keys label) = next.known ∧ next.known = s.known + min 2000 (count - s.known) := by
  have before : Directory chain (others chain reads.meanwhile store).db
      (Function.update (fun label => known (store.keys label)) label s.known) := by
    rw [← at', Function.update_eq_self]
    exact others_settled settled
  obtain ⟨moved, keys, after⟩ := @publish_directory chain _ label freshLimit s _ before (min 2000 (count - s.known))
  rw [batch_resolved read]
  refine ⟨_, _, rfl, ?_, ?_, moved⟩
  · unfold Settled
    rw [keys]
    have cursors : (fun other => known (Function.update (others chain reads.meanwhile store).keys label
        ⟨some (s.known + min 2000 (count - s.known)), some (s.known + min 2000 (count - s.known))⟩ other)) =
        Function.update (fun label => known (store.keys label)) label (s.known + min 2000 (count - s.known)) := by
      funext other
      unfold Function.update
      split
      · rename_i same
        subst same
        dsimp only [known]
        rw [Option.filter_some, if_pos (by simp only [decide_eq_true_eq]; omega)]
        rfl
      · rfl
    rw [cursors]
    exact after
  · rw [keys, moved, Function.update_self]
    dsimp only [known]
    rw [Option.filter_some, if_pos (by simp only [decide_eq_true_eq]; omega)]
    rfl

/-- What a loop leaves: it stops early only where the answers end. -/
structure Looped (chain : Chain) (label : V2Label) (count rounds : Nat) (s : Syncing) (outcome : Except SyncError Syncing) (store : V2Store) : Prop where
  settled : Settled chain store
  returned : ∀ s', outcome = .ok s' → known (store.keys label) = s'.known
  ended : count - s.known ≤ 2000 * rounds → outcome ≠ .error .stopped

theorem loop_settled {batches : List (BatchReads chain)} (settled : Settled chain store) (at' : known (store.keys label) = s.known)
    (safe : count ≤ maxSafeInteger) :
    Looped chain label count batches.length s ((syncLoop chain freshLimit label count s batches).run store).1
      ((syncLoop chain freshLimit label count s batches).run store).2 := by
  induction batches generalizing s store with
  | nil =>
    unfold syncLoop
    split
    · rename_i going
      refine ⟨settled, nofun, fun enough => ?_⟩
      rw [List.length_nil] at enough
      omega
    · exact ⟨settled, fun s' same => by cases same; exact at', fun _ => nofun⟩
  | cons reads rest ih =>
    unfold syncLoop
    split
    · rename_i going
      by_cases failed : Unresolved (min 2000 (count - s.known)) reads
      · rw [Durable.run_bind_ok (batch_unresolved failed)]
        exact ⟨others_settled settled, fun s' same => by cases same; exact at', fun _ => nofun⟩
      · obtain ⟨next, store', ran, after, cursor, moved⟩ := @batch_settled chain label freshLimit count s reads store settled at' going safe failed
        rw [Durable.run_bind_ok ran]
        obtain ⟨settled', returned, ended⟩ := ih after cursor
        refine ⟨settled', returned, fun enough => ended ?_⟩
        rw [List.length_cons] at enough
        omega
    · exact ⟨settled, fun s' same => by cases same; exact at', fun _ => nofun⟩

structure Synced (chain : Chain) (label : V2Label) (call : Call chain) (outcome : Except SyncError (Nat × List Address)) (store : V2Store) : Prop where
  settled : Settled chain store
  returned : ∀ result, outcome = .ok result → call.allPairsLength = some (known (store.keys label))
  ended : ∀ count, call.allPairsLength = some count → count ≤ 2000 * call.batches.length → outcome ≠ .error .stopped

theorem setFactoryCount_known {other : V2Label} : known ((setFactoryCount label count store).keys other) = known (store.keys other) := by
  unfold setFactoryCount
  dsimp only
  by_cases same : other = label
  · subst same
    rw [Function.update_self]
    rfl
  · rw [Function.update_of_ne same]

theorem venue_synced {call : Call chain} (settled : Settled chain store) :
    Synced chain label call ((syncV2Venue chain freshLimit label call).run store).1 ((syncV2Venue chain freshLimit label call).run store).2 := by
  have start := @others_settled chain store call.meanwhile settled
  unfold syncV2Venue
  rw [Durable.run_write_bind]
  generalize others chain call.meanwhile store = store at *
  cases length : call.allPairsLength with
  | none => exact ⟨start, nofun, nofun⟩
  | some count =>
    dsimp only
    split
    · exact ⟨start, nofun, fun _ _ _ => nofun⟩
    rename_i safe
    show Synced chain label call (Durable.run (if count < known (store.keys label) then _ else _) store).1
      (Durable.run (if count < known (store.keys label) then _ else _) store).2
    split
    · exact ⟨start, nofun, fun _ _ _ => nofun⟩
    split
    · rename_i same
      refine ⟨?_, fun result _ => ?_, fun _ _ _ => nofun⟩
      · show Directory chain store.db fun other => known ((setFactoryCount label count store).keys other)
        simp only [setFactoryCount_known]
        exact start
      · rw [length, same]
        exact congrArg some setFactoryCount_known.symm
    · have looped := @loop_settled chain label freshLimit count ⟨known (store.keys label), 0, []⟩ store call.batches start rfl (not_lt.mp safe)
      rw [Durable.bind_run]
      rcases ran : (syncLoop chain freshLimit label count ⟨known (store.keys label), 0, []⟩ call.batches).run store with ⟨outcome, store'⟩
      rw [ran] at looped
      obtain ⟨settled', returned, ended⟩ := looped
      cases outcome with
      | error e =>
        refine ⟨settled', nofun, fun other same enough stopped => ?_⟩
        rw [length] at same
        cases same
        exact ended (by dsimp only; omega) (by cases stopped; rfl)
      | ok s =>
        have cursor : known (store'.keys label) = s.known := returned s rfl
        dsimp only
        split
        · exact ⟨settled', nofun, fun _ _ _ => nofun⟩
        · rename_i whole
          refine ⟨settled', fun _ _ => ?_, fun _ _ _ => nofun⟩
          show _ = some (known (store'.keys label))
          rw [length, cursor, not_not.mp whole]

/-- The rows of a venue are the pairs below a cursor, each with its own index, address and tokens. -/
structure Exact (chain : Chain) (db : Database) (label : V2Label) (cursor : Nat) : Prop where
  sound : ∀ pool ∈ db.pools.rows, pool.proto = label.proto → ∃ i < cursor, Carries chain label i pool
  complete : ∀ i < cursor, ∃ pool ∈ db.pools.rows, Carries chain label i pool

theorem settled_exact (settled : Settled chain store) (label : V2Label) : Exact chain store.db label (known (store.keys label)) where
  sound pool member own := by
    rcases settled.sound pool member with ⟨other, -⟩ | ⟨other, i, below, carries⟩
    · rw [own, proto_isV2] at other
      cases other
    · obtain rfl := proto_inj (carries.proto.symm.trans own)
      exact ⟨i, below, carries⟩
  complete := settled.complete label

/-- A store whose v2 rows are settled: a fresh one, or one that an earlier import filled. -/
structure SettledStore (chain : Chain) where
  store : V2Store
  settled : Settled chain store

def SettledStore.fresh (chain : Chain) : SettledStore chain where
  store := V2Store.fresh
  settled := ⟨fun _ member => (List.not_mem_nil member).elim, fun _ _ below => absurd below (Nat.not_lt_zero _)⟩

def afterCall (chain : Chain) (freshLimit : Nat) (store : V2Store) (call : V2Label × Call chain) : V2Store :=
  Durable.left (syncV2Venue chain freshLimit call.1 call.2) store

/-- After any calls for any venues the rows are the pairs below the cursors; a batch with an unresolved read leaves
the store as other tasks left it; a call returns only with its cursor at the count it read, and asks for no
more than one batch for each 2000 pairs. -/
theorem syncV2Venue_exact (chain : Chain) (freshLimit : Nat) (start : SettledStore chain) (calls : List (V2Label × Call chain)) :
    let store := calls.foldl (afterCall chain freshLimit) start.store
    (∀ label, Exact chain store.db label (known (store.keys label))) ∧
      (∀ label count s (reads : BatchReads chain), Unresolved (min 2000 (count - s.known)) reads →
        (syncBatch chain freshLimit label count s reads).run store = (.ok none, others chain reads.meanwhile store)) ∧
      ∀ label (call : Call chain),
        (∀ result store', (syncV2Venue chain freshLimit label call).run store = (.ok result, store') →
          call.allPairsLength = some (known (store'.keys label))) ∧
        ∀ count, call.allPairsLength = some count → count ≤ 2000 * call.batches.length →
          ((syncV2Venue chain freshLimit label call).run store).1 ≠ .error .stopped := by
  have settled : Settled chain (calls.foldl (afterCall chain freshLimit) start.store) :=
    @Trace.run_keeps_all _ _ (afterCall chain freshLimit) (Settled chain) start.store (fun _ _ before => (venue_synced before).settled) start.settled calls
  refine ⟨settled_exact settled, fun _ _ _ _ => batch_unresolved, fun label call => ?_⟩
  obtain ⟨-, returned, ended⟩ := @venue_synced chain label freshLimit _ call settled
  refine ⟨fun result store' ran => ?_, ended⟩
  rw [ran] at returned
  exact returned result rfl

end LpTerminal.Catalog.V2Sync
