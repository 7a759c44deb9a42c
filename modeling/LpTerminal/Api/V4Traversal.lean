import LpTerminal.Api.V4Directory
import LpTerminal.Lib.Keyset

/-!
A traversal of the v4 catalog: frozen while every write leaves its fence as it was or is followed by a conflict, and torn by a page
of an import that nobody has published.
-/

namespace LpTerminal.Api

open Catalog

variable {config : V4Config} {browse : V4Browse} {filter : V4Filter} {fence : Nat} {after : Option Digest} {s s' : V4Directory}
  {write : V4Write}

def remains (filter : V4Filter) (fence : Nat) (after : Option Digest) (symbols : Address → Option String) (pool : V4Pool) : Bool :=
  inScope filter fence symbols pool && after.all fun cursor => cursor < pool.poolId

def Harmless (config : V4Config) (filter : V4Filter) (fence : Nat) (after : Option Digest) (s : V4Directory) : V4Write → Prop
  | .tailWindow durableCursor logs hi =>
    (∀ log ∈ logs, Quiet config (remains filter fence after s.symbol) s.pools log) ∧ fence ≤ max durableCursor hi
  | .tailDone head => fence ≤ head
  | .historyWindow logs => ∀ log ∈ logs, Quiet config (remains filter fence after s.symbol) s.pools log
  | .recordStockToken _ _ => True
  | .announce => True
  | .importPage generation rows symbols =>
    (∀ row ∈ s.pools.rows, remains filter fence after (upsertSymbols symbols s.symbol) row = remains filter fence after s.symbol row) ∧
      ∀ row ∈ rows, Imports config generation (remains filter fence after (upsertSymbols symbols s.symbol)) s.pools row
  | .publish generation block _ =>
    (∀ row ∈ s.pools.rows, remains filter fence after s.symbol row = true → Survives s.store.db generation row) ∧ block = fence

def remaining (filter : V4Filter) (fence : Nat) (after : Option Digest) (s : V4Directory) : Table (fun id : Digest => id) :=
  selected (remains filter fence after s.symbol) s.pools

/-- A continuation under this fence passes the checks of `v4Capability`. -/
structure Available (config : V4Config) (fence : Nat) (s : V4Directory) : Prop where
  cursor : fence ≤ s.cursorBlock
  snapshot : ∀ block ∈ s.snapshotBlock, block ≤ fence
  generation : (v4CatalogGeneration config s).isSome = true

structure Same (config : V4Config) (filter : V4Filter) (fence : Nat) (after : Option Digest) (s s' : V4Directory) : Prop where
  rows : remaining filter fence after s' = remaining filter fence after s
  stats : s'.poolStats = s.poolStats
  available : Available config fence s → Available config fence s'

theorem Same.refl (s : V4Directory) : Same config filter fence after s s := ⟨rfl, rfl, id⟩

theorem Same.trans {middle : V4Directory} (one : Same config filter fence after s middle) (two : Same config filter fence after middle s') :
    Same config filter fence after s s' :=
  ⟨two.rows.trans one.rows, two.stats.trans one.stats, two.available ∘ one.available⟩

theorem remains_label (symbols : Address → Option String) (row : V4Pool) (label : Option Digest) :
    remains filter fence after symbols { row with snapshotGeneration := label } = remains filter fence after symbols row := rfl

theorem toOption_some {ε α : Type} {m : Except ε α} {a : α} (read : m.toOption = some a) : m = .ok a := by
  cases m with
  | error e => cases read
  | ok b => cases read; rfl

theorem tailWindow_same {durableCursor hi : Nat} {logs : List Initialize} (harmless : Harmless config filter fence after s (.tailWindow durableCursor logs hi))
    (ran : V4Write.apply config s (.tailWindow durableCursor logs hi) = some s') : Same config filter fence after s s' := by
  obtain ⟨quiet, reaches⟩ := harmless
  obtain ⟨store, stored, rfl⟩ := Option.map_eq_some_iff.mp ran
  obtain ⟨⟨db, rfl, keys⟩, kept⟩ := storeLogs_keeps (toOption_some stored)
  refine ⟨kept quiet, rfl, fun available => ⟨reaches, available.snapshot, ?_⟩⟩
  have generation := available.generation
  unfold v4CatalogGeneration at generation ⊢
  dsimp only
  rw [keys]
  exact generation

theorem historyWindow_same {logs : List Initialize} (quiet : Harmless config filter fence after s (.historyWindow logs))
    (ran : V4Write.apply config s (.historyWindow logs) = some s') : Same config filter fence after s s' := by
  obtain ⟨store, stored, rfl⟩ := Option.map_eq_some_iff.mp ran
  obtain ⟨⟨db, rfl, keys⟩, kept⟩ := storeLogs_keeps (toOption_some stored)
  refine ⟨kept quiet, rfl, fun available => ⟨available.cursor, available.snapshot, ?_⟩⟩
  have generation := available.generation
  unfold v4CatalogGeneration at generation ⊢
  dsimp only
  rw [keys]
  exact generation

theorem importPage_same {generation : Digest} {rows : List ParsedPool} {symbols : List (Address × String)}
    (harmless : Harmless config filter fence after s (.importPage generation rows symbols))
    (ran : V4Write.apply config s (.importPage generation rows symbols) = some s') : Same config filter fence after s s' := by
  obtain ⟨unmoved, imports⟩ := harmless
  obtain ⟨stored, imported, rfl⟩ := Option.map_eq_some_iff.mp ran
  have imported := toOption_some imported
  have kept := storeRows_keeps imported imports
  have keys := (storeRows_stored imported).keys
  refine ⟨?_, rfl, fun available => ⟨available.cursor, available.snapshot, ?_⟩⟩
  · have symbolsOnly : selected (remains filter fence after (upsertSymbols symbols s.symbol)) s.pools =
        selected (remains filter fence after s.symbol) s.pools := by
      refine Table.ext_mem fun id => ?_
      unfold selected
      dsimp only
      rw [List.filter_congr unmoved]
    exact kept.trans symbolsOnly
  · have told := available.generation
    unfold v4CatalogGeneration at told ⊢
    dsimp only at keys ⊢
    rw [keys]
    exact told

theorem publish_same {generation : Digest} {block downloaded : Nat}
    (harmless : Harmless config filter fence after s (.publish generation block downloaded))
    (ran : V4Write.apply config s (.publish generation block downloaded) = some s') : Same config filter fence after s s' := by
  obtain ⟨survive, rfl⟩ := harmless
  obtain ⟨db, published, rfl⟩ := Option.map_eq_some_iff.mp ran
  have published := toOption_some published
  refine ⟨publishGeneration_keeps published (remains_label s.symbol) survive, rfl, fun available => ⟨le_refl _, fun found same => ?_, ?_⟩⟩
  · cases same
    exact le_refl _
  · have told := available.generation
    unfold v4CatalogGeneration at told ⊢
    split
    · rename_i rpc
      rw [if_pos rpc] at told
      exact told
    · dsimp only
      rw [(publishGeneration_collects published).1]
      rfl

theorem announce_available (available : Available config fence s) :
    Available config fence { s with store := V4Rpc.publish config.rpc s.store } := by
  refine ⟨available.cursor, available.snapshot, ?_⟩
  have told := available.generation
  unfold v4CatalogGeneration at told ⊢
  split
  · rfl
  · rename_i graph
    rw [if_neg graph] at told
    exact told

theorem commit_same (harmless : Harmless config filter fence after s write) : Same config filter fence after s (s.commit config write) := by
  unfold V4Directory.commit
  cases ran : write.apply config s with
  | none => exact Same.refl s
  | some s' =>
    cases write with
    | tailWindow durableCursor logs hi => exact tailWindow_same harmless ran
    | historyWindow logs => exact historyWindow_same harmless ran
    | importPage generation rows symbols => exact importPage_same harmless ran
    | publish generation block downloaded => exact publish_same harmless ran
    | recordStockToken address issuer =>
      cases ran
      exact ⟨rfl, rfl, fun available => ⟨available.cursor, available.snapshot, available.generation⟩⟩
    | announce =>
      cases ran
      exact ⟨rfl, rfl, announce_available⟩
    | tailDone head =>
      cases ran
      have moved : Available config fence s → Available config fence { s with store := { s.store with cursor := some head } } :=
        fun available => ⟨harmless, available.snapshot, available.generation⟩
      refine ⟨?_, rfl, fun available => ?_⟩
      · dsimp only [Option.getD_some]
        split <;> rfl
      · dsimp only [Option.getD_some]
        split
        · exact announce_available (moved available)
        · exact moved available

theorem kept_same : Reads.Kept (V4Directory.commit config) (Harmless config filter fence after) (Same config filter fence after) :=
  ⟨Same.refl, Same.trans, fun _ _ => commit_same⟩

structure Accepted (browse : V4Browse) : Prop where
  pair : exactPair browse.token0 browse.token1 browse.q.isSome = .ok browse.filter.pair
  limit : ∀ asked ∈ browse.limit, 0 < asked ∧ asked ≤ MAX_PAGE_LIMIT

theorem Accepted.bounds (accepted : Accepted browse) : 1 ≤ browse.pageLimit ∧ browse.pageLimit ≤ MAX_PAGE_LIMIT := by
  have limit := accepted.limit
  unfold V4Browse.pageLimit
  cases known : browse.limit with
  | none => exact ⟨by decide, by decide⟩
  | some asked => exact limit asked known

theorem exactPair_filter {pair : Option (Address × Address)} (ran : exactPair browse.token0 browse.token1 browse.q.isSome = .ok pair) :
    pair = browse.filter.pair := by
  unfold V4Browse.filter
  unfold exactPair at ran
  cases first : browse.token0 with
  | none =>
    cases second : browse.token1 with
    | none => rw [first, second] at ran; cases ran; rfl
    | some token1 => rw [first, second] at ran; cases ran
  | some token0 =>
    cases second : browse.token1 with
    | none => rw [first, second] at ran; cases ran
    | some token1 =>
      rw [first, second] at ran
      dsimp only at ran
      split at ran
      · cases ran
      · split at ran <;> cases ran
        rfl

variable {snapshotBlock : Option Nat} {cursorBlock : Nat}

theorem v4RequestOf_landing {generation : Option Digest} {request : V4Request}
    (ran : v4RequestOf browse.landing cursorBlock snapshotBlock generation = .ok request) :
    Accepted browse ∧ request.filter = browse.filter ∧ request.limit = browse.pageLimit ∧
      request.catalogBlock = if cursorBlock ≠ 0 then cursorBlock else snapshotBlock.getD 0 := by
  unfold v4RequestOf V4Browse.landing at ran
  obtain ⟨pair, paired, ran⟩ := Fallible.bind_ok ran
  iterate 3 obtain ⟨-, ran⟩ := Fallible.then_ok.mp ran
  obtain ⟨limit, ran⟩ := Fallible.then_ok.mp ran
  cases ran
  obtain rfl := exactPair_filter paired
  exact ⟨⟨paired, Fallible.demand_ok.mp limit⟩, rfl, rfl, rfl⟩

theorem v4RequestOf_outdated (accepted : Accepted browse) {landing : V4Page} {cursor : Digest}
    {generation : Option Digest} (known : landing.catalogGeneration.isSome = true) (outdated : landing.catalogGeneration ≠ generation) :
    v4RequestOf (browse.continuation landing cursor) cursorBlock snapshotBlock generation =
      .error (.conflict "univ4 catalog generation changed; restart pagination") := by
  unfold v4RequestOf V4Browse.continuation
  dsimp only
  rw [accepted.pair]
  have refused : ¬ (landing.catalogGeneration = none ∨ landing.catalogGeneration = generation) := fun either =>
    either.elim (fun none => by rw [none] at known; cases known) outdated
  unfold Fallible.demand
  rw [if_neg refused]
  rfl

theorem v4RequestOf_continuation (accepted : Accepted browse) {landing : V4Page} {cursor : Digest}
    (known : landing.catalogGeneration.isSome = true)
    (safe : 0 < landing.catalogBlock ∧ landing.catalogBlock ≤ maxSafeInteger) (snapshot : ∀ block ∈ snapshotBlock, block ≤ landing.catalogBlock)
    (reached : landing.catalogBlock ≤ cursorBlock) :
    v4RequestOf (browse.continuation landing cursor) cursorBlock snapshotBlock landing.catalogGeneration =
      .ok ⟨browse.filter, landing.catalogBlock, browse.pageLimit⟩ := by
  unfold v4RequestOf V4Browse.continuation
  dsimp only
  rw [accepted.pair]
  have block : ∀ requested ∈ some landing.catalogBlock, (0 < requested ∧ requested ≤ maxSafeInteger) ∧
      (∀ block ∈ snapshotBlock, block ≤ requested) ∧ (0 < cursorBlock → requested ≤ cursorBlock) := by
    rintro _ ⟨⟩
    exact ⟨safe, snapshot, fun _ => reached⟩
  unfold Fallible.demand
  rw [if_pos (Or.inr rfl), if_pos (Or.inr ⟨by simp, Option.isSome_iff_ne_none.mp known⟩), if_pos block, if_pos accepted.limit]
  rfl

theorem scopedRows_remaining : (scopedRows filter fence s).map V4Pool.poolId = (remaining filter fence none s).rows := by
  unfold scopedRows remaining selected
  dsimp only
  refine congrArg _ (List.filter_congr fun row _ => ?_)
  unfold remains
  simp

def HonestV4 (listed : Table (fun id : Digest => id)) (page : V4Page) : Prop :=
  page.nextCursor = none → (page.pools.map V4Pool.poolId).Perm listed.rows

theorem countV4_bounds (request : V4Request) :
    (remaining request.filter request.catalogBlock none s).rows.length ≤ (countV4 request s).n ∨ (countV4 request s).n = SEARCH_COUNT_CAP := by
  rw [← scopedRows_remaining, List.length_map]
  unfold countV4
  dsimp only
  split
  · unfold boundedCount
    split
    · exact Or.inr rfl
    · rename_i few
      left
      unfold exactly
      rw [List.length_take] at few ⊢
      dsimp only
      omega
  · exact Or.inl (le_refl _)

theorem mem_fetchFeatured {request : V4Request} {featuredBlock : Option Nat} {target : Nat} {pool : V4Pool}
    (member : pool ∈ fetchFeatured request featuredBlock target s) :
    pool ∈ scopedRows request.filter request.catalogBlock s ∧ ∃ block, featuredBlock = some block ∧ featuredIn s block pool = true := by
  unfold fetchFeatured at member
  cases featuredBlock with
  | none => cases member
  | some block =>
    have inside := (List.mergeSort_perm _ _).subset (List.mem_of_mem_take member)
    obtain ⟨scoped_, featured⟩ := List.mem_filter.mp inside
    exact ⟨scoped_, block, rfl, featured⟩

theorem fetchFeatured_nodup (request : V4Request) (featuredBlock : Option Nat) (target : Nat) :
    ((fetchFeatured request featuredBlock target s).map V4Pool.poolId).Nodup ∧ (fetchFeatured request featuredBlock target s).length ≤ target := by
  unfold fetchFeatured
  cases featuredBlock with
  | none => exact ⟨List.nodup_nil, Nat.zero_le _⟩
  | some block =>
    refine ⟨?_, top_length _ _ _⟩
    have distinct : ((scopedRows request.filter request.catalogBlock s).map V4Pool.poolId).Nodup := by
      rw [scopedRows_remaining]
      exact (remaining request.filter request.catalogBlock none s).sorted.imp fun before => before.ne
    have chosen := distinct.sublist ((@List.filter_sublist _ (featuredIn s block) _).map V4Pool.poolId)
    have sorted := ((List.mergeSort_perm ((scopedRows request.filter request.catalogBlock s).filter (featuredIn s block))
      (lexically [ascending (featuredRank s), ascending V4Pool.poolId])).map V4Pool.poolId).nodup_iff.mpr chosen
    exact sorted.sublist ((List.take_sublist _ _).map _)

theorem mem_fetchFiller {request : V4Request} {featuredBlock : Option Nat} {room : Nat} {pool : V4Pool}
    (member : pool ∈ fetchFiller request featuredBlock room s) :
    pool ∈ scopedRows request.filter request.catalogBlock s ∧ ∀ block ∈ featuredBlock, featuredIn s block pool = false := by
  obtain ⟨inside, unfeatured⟩ := List.mem_filter.mp (List.mem_of_mem_take member)
  refine ⟨inside, fun block known => ?_⟩
  rw [known] at unfeatured
  simpa using unfeatured

theorem fetchFiller_nodup (request : V4Request) (featuredBlock : Option Nat) (room : Nat) :
    ((fetchFiller request featuredBlock room s).map V4Pool.poolId).Nodup ∧ (fetchFiller request featuredBlock room s).length ≤ room := by
  have distinct : ((scopedRows request.filter request.catalogBlock s).map V4Pool.poolId).Nodup := by
    rw [scopedRows_remaining]
    exact (remaining request.filter request.catalogBlock none s).sorted.imp fun before => before.ne
  refine ⟨distinct.sublist (((List.take_sublist _ _).trans List.filter_sublist).map V4Pool.poolId), ?_⟩
  unfold fetchFiller
  rw [List.length_take]
  omega

theorem fetched_subperm {request : V4Request} {featuredBlock : Option Nat} {target room : Nat}
    (same : Same config request.filter request.catalogBlock none s s') :
    ((fetchFeatured request featuredBlock target s ++ fetchFiller request featuredBlock room s').map V4Pool.poolId).Subperm
      (remaining request.filter request.catalogBlock none s).rows := by
  have inScopeOf : ∀ {s : V4Directory} {pool : V4Pool}, pool ∈ scopedRows request.filter request.catalogBlock s →
      pool.poolId ∈ (remaining request.filter request.catalogBlock none s).rows := fun member => by
    rw [← scopedRows_remaining]
    exact List.mem_map_of_mem member
  rw [List.map_append]
  refine List.subperm_of_subset (List.nodup_append'.mpr ⟨(fetchFeatured_nodup request featuredBlock target).1,
    (fetchFiller_nodup request featuredBlock room).1, ?_⟩) ?_
  · intro id featured filler
    obtain ⟨pool, shown, rfl⟩ := List.mem_map.mp featured
    obtain ⟨other, filled, key⟩ := List.mem_map.mp filler
    obtain ⟨-, block, known, ranked⟩ := mem_fetchFeatured shown
    have unranked := (mem_fetchFiller filled).2 block known
    unfold featuredIn at ranked unranked
    rw [same.stats, key, ranked] at unranked
    cases unranked
  · intro id member
    rcases List.mem_append.mp member with featured | filler
    · obtain ⟨pool, shown, rfl⟩ := List.mem_map.mp featured
      exact inScopeOf (mem_fetchFeatured shown).1
    · obtain ⟨pool, filled, rfl⟩ := List.mem_map.mp filler
      rw [← same.rows]
      exact inScopeOf (mem_fetchFiller filled).1

theorem v4LandingPage_honest {request : V4Request} {featuredBlock : Option Nat} {generation : Option Digest}
    {atCount atRows atFiller : V4Directory} (bound : request.limit ≤ MAX_PAGE_LIMIT)
    (toRows : Same config request.filter request.catalogBlock none atCount atRows)
    (toFiller : Same config request.filter request.catalogBlock none atRows atFiller) :
    let target := min request.limit (countV4 request atCount).n
    let featured := fetchFeatured request featuredBlock target atRows
    let filler := fetchFiller request featuredBlock (target - featured.length) atFiller
    HonestV4 (remaining request.filter request.catalogBlock none atFiller)
      (v4LandingPage request generation (countV4 request atCount) (featured ++ filler)) := by
  intro target featured filler ends
  have bounds := @countV4_bounds atCount request
  have small : featured.length ≤ target := (fetchFeatured_nodup request featuredBlock target).2
  have fits : filler.length ≤ target - featured.length := (fetchFiller_nodup request featuredBlock _).2
  have below : target ≤ request.limit := min_le_left _ _
  have counted : (countV4 request atCount).n ≤ featured.length + filler.length := by
    by_contra more
    simp only [v4LandingPage, List.length_append] at ends
    rw [if_pos (by omega)] at ends
    cases ends
  have inside := @fetched_subperm config atRows atFiller request featuredBlock target (target - featured.length) toFiller
  rw [toFiller.rows]
  refine inside.perm_of_length_le ?_
  rw [toRows.rows, List.length_map, List.length_append]
  unfold SEARCH_COUNT_CAP MAX_PAGE_LIMIT at bounds
  unfold MAX_PAGE_LIMIT at bound
  show _ ≤ featured.length + filler.length
  omega

/-- What an answered landing page promises about the scope of its response. -/
structure LandedV4 (config : V4Config) (browse : V4Browse) (start last : V4Directory) (page : V4Page) : Prop where
  accepted : Accepted browse
  block : page.catalogBlock = start.cursorBlock
  generation : page.catalogGeneration.isSome = true
  honest : HonestV4 (remaining browse.filter page.catalogBlock none last) page
  starts : ∀ cursor ∈ page.nextCursor, cursor = FIRST_V4_POOL_CURSOR

theorem answerV4_lands {start now : V4Directory} {request : V4Request} {generation : Option Digest} {featuredBlock : Option Nat}
    (accepted : Accepted browse) (filters : request.filter = browse.filter) (limits : request.limit = browse.pageLimit)
    (fenced : request.catalogBlock = start.cursorBlock) (known : generation.isSome = true)
    (reached : Same config browse.filter start.cursorBlock none start now) :
    (answerV4 browse.landing request generation featuredBlock).Ensures (Same config browse.filter start.cursorBlock none)
      (fun answer last => Same config browse.filter start.cursorBlock none start last ∧
        ∀ page, answer = .ok page → LandedV4 config browse start last page) now := by
  intro atCount toCount atRows toRows atFiller toFiller
  have untilCount := reached.trans toCount
  refine ⟨(untilCount.trans toRows).trans toFiller, fun page same => ?_⟩
  cases same
  have bound := accepted.bounds.2
  rw [← limits] at bound
  rw [← filters, ← fenced] at toRows toFiller
  have honest := @v4LandingPage_honest config request featuredBlock generation _ _ _ bound toRows toFiller
  rw [filters] at honest
  refine ⟨accepted, fenced, known, honest, fun cursor starts => ?_⟩
  unfold v4LandingPage at starts
  dsimp only at starts
  split at starts
  · exact (Option.some.inj starts).symm
  · cases starts

theorem getV4Pools_lands {start : V4Directory} (available : Available config start.cursorBlock start) (published : start.cursorBlock ≠ 0) :
    ∃ next, getV4Pools config browse.landing = .read next ∧
      (next start).Ensures (Same config browse.filter start.cursorBlock none) (fun answer last =>
        Same config browse.filter start.cursorBlock none start last ∧
          ∀ page, answer = .ok page → LandedV4 config browse start last page) start := by
  refine ⟨_, rfl, ?_⟩
  intro atSnapshot toSnapshot atGeneration toGeneration atFeatured toFeatured
  have untilGeneration := toSnapshot.trans toGeneration
  have untilFeatured := untilGeneration.trans toFeatured
  dsimp only
  split
  · exact ⟨untilFeatured, fun page same => by cases same⟩
  · rename_i request told
    obtain ⟨accepted, filters, limits, block⟩ := v4RequestOf_landing told
    rw [if_pos published] at block
    exact answerV4_lands accepted filters limits block (untilGeneration.available available).generation untilFeatured

theorem remaining_after (cursor : Digest) :
    (remaining filter fence (some cursor) s).rows = (remaining filter fence none s).after (some cursor) := by
  unfold remaining selected Table.after
  dsimp only
  rw [List.filter_map, List.filter_filter]
  refine congrArg _ (List.filter_congr fun row _ => ?_)
  simp [remains, Bool.and_comm]

theorem getV4Pools_pages {landing : V4Page} (accepted : Accepted browse) (known : landing.catalogGeneration.isSome = true)
    (safe : 0 < landing.catalogBlock ∧ landing.catalogBlock ≤ maxSafeInteger) {now : V4Directory} (cursor : Digest)
    (available : Available config landing.catalogBlock now) :
    (getV4Pools config (browse.continuation landing cursor)).Ensures (Same config browse.filter landing.catalogBlock (some cursor))
      (fun answer last => Same config browse.filter landing.catalogBlock (some cursor) now last ∧
        match answer with
        | .error refusal => ∃ text, refusal = .conflict text
        | .ok page => ∀ listed : Table (fun id : Digest => id),
            listed.after (some cursor) = (remaining browse.filter landing.catalogBlock (some cursor) now).rows →
              listed.Paged cursor browse.pageLimit (page.pools.map V4Pool.poolId) page.nextCursor) now := by
  intro atCursor toCursor atSnapshot toSnapshot atGeneration toGeneration atFeatured toFeatured
  have untilSnapshot := toCursor.trans toSnapshot
  have untilFeatured := (untilSnapshot.trans toGeneration).trans toFeatured
  dsimp only
  by_cases outdated : landing.catalogGeneration ≠ v4CatalogGeneration config atGeneration
  · rw [v4RequestOf_outdated accepted known outdated]
    exact ⟨untilFeatured, _, rfl⟩
  · rw [not_not] at outdated
    have snapshot : ∀ block ∈ atSnapshot.snapshotBlock.filter (fun block => block ≠ 0), block ≤ landing.catalogBlock := fun block found =>
      (untilSnapshot.available available).snapshot block (Option.filter_eq_some_iff.mp found).1
    rw [← outdated, v4RequestOf_continuation accepted known safe snapshot (toCursor.available available).cursor]
    intro atCount toCount atRows toRows
    have untilRows := (untilFeatured.trans toCount).trans toRows
    refine ⟨untilRows, fun listed agrees => ?_⟩
    have paged := @Table.paged_fetch _ _ _ V4Pool.poolId browse.pageLimit (remaining browse.filter landing.catalogBlock none atRows) cursor
      (scopedRows browse.filter landing.catalogBlock atRows) scopedRows_remaining.symm
      (fetchAfter ⟨browse.filter, landing.catalogBlock, browse.pageLimit⟩ cursor atRows) rfl
    have afters : listed.after (some cursor) = (remaining browse.filter landing.catalogBlock none atRows).after (some cursor) := by
      rw [agrees, ← untilRows.rows, remaining_after]
    refine ⟨?_, ?_⟩
    · have shown := paged.shown
      unfold Table.page at shown ⊢
      rw [afters]
      exact shown
    · have next := paged.next
      unfold Table.page at next ⊢
      rw [afters]
      exact next

section Conditions

variable (config : V4Config) (browse : V4Browse) (landing : V4Page)

def CalmV4 : List Schedule → Option Digest → V4Directory → Prop
  | schedule :: later, some cursor, s =>
    (getV4Pools config (browse.continuation landing cursor)).Obeys (V4Directory.commit config)
        (Harmless config browse.filter landing.catalogBlock (some cursor)) schedule s ∧
      match (getV4Pools config (browse.continuation landing cursor)).run (V4Directory.commit config) schedule s with
      | (.error _, _) => True
      | (.ok page, s') => CalmV4 later page.nextCursor s'
  | _, _, _ => True

def OutdatedV4 : List Schedule → Option Digest → V4Directory → Prop
  | schedule :: later, some cursor, s =>
    landing.catalogGeneration ≠ v4CatalogGeneration config ((schedule.take 3).flatten.foldl (V4Directory.commit config) s) ∨
      match (getV4Pools config (browse.continuation landing cursor)).run (V4Directory.commit config) schedule s with
      | (.error _, _) => False
      | (.ok page, s') => OutdatedV4 later page.nextCursor s'
  | _, _, _ => False

end Conditions

structure Pinnable (config : V4Config) (filter : V4Filter) (start : V4Directory) : Prop where
  available : Available config start.cursorBlock start
  positive : 0 < start.cursorBlock
  safe : start.cursorBlock ≤ maxSafeInteger
  /-- No pool id is the cursor before the first page. -/
  ids : FIRST_V4_POOL_CURSOR ∉ (remaining filter start.cursorBlock none start).rows

def Undisturbed (config : V4Config) (browse : V4Browse) (schedule : Schedule) (later : List Schedule) (start : V4Directory) : Prop :=
  match landV4 config browse schedule start with
  | (.error _, _) => True
  | (.ok landing, s) =>
    (landing.catalogGeneration.isSome = true ∧ OutdatedV4 config browse landing later landing.nextCursor s) ∨
      (Pinnable config browse.filter start ∧
        (getV4Pools config browse.landing).Obeys (V4Directory.commit config) (Harmless config browse.filter start.cursorBlock none)
          ([] :: schedule) start ∧
        CalmV4 config browse landing later landing.nextCursor s)

def shownV4 (pages : List V4Page) : List Digest := pages.flatMap fun page => page.pools.map V4Pool.poolId

/-- How a traversal may end after `s`, the state of the landing response. -/
def UpheldV4 (browse : V4Browse) (requests : Nat) (s : V4Directory) : V4Traversal → Prop
  | .refused _ => True
  | .interrupted _ refusal => ∃ text, refusal = .conflict text
  | .unfinished landing => requests ≤ (remaining browse.filter landing.catalogBlock none s).rows.length
  | .complete landing pages => HonestV4 (remaining browse.filter landing.catalogBlock none s) landing ∧
      shownV4 pages = if landing.nextCursor = none then [] else (remaining browse.filter landing.catalogBlock none s).rows

variable {config : V4Config} {browse : V4Browse} {landing : V4Page} {schedule : Schedule} {later : List Schedule} {start s : V4Directory}

/-- What is left of a request once it has read the generation. -/
def answerFrom (config : V4Config) (params : V4Params) (cursorBlock : Nat) (snapshotBlock : Option Nat) (third : V4Directory) :
    Reads V4Directory (Except Refusal V4Page) :=
  .read fun atFeatured => match v4RequestOf params cursorBlock snapshotBlock (v4CatalogGeneration config third) with
    | .error refusal => .done (.error refusal)
    | .ok request => answerV4 params request (v4CatalogGeneration config third) atFeatured.featuredBlock

theorem getV4Pools_outdated (accepted : Accepted browse) (known : landing.catalogGeneration.isSome = true) (cursor : Digest)
    (outdated : landing.catalogGeneration ≠ v4CatalogGeneration config ((schedule.take 3).flatten.foldl (V4Directory.commit config) s)) :
    ((getV4Pools config (browse.continuation landing cursor)).run (V4Directory.commit config) schedule s).1 =
      .error (.conflict "univ4 catalog generation changed; restart pagination") := by
  have conflict : ∀ (third : V4Directory) (rest : Schedule) (cursorBlock : Nat) (snapshotBlock : Option Nat),
      landing.catalogGeneration ≠ v4CatalogGeneration config third →
      ((answerFrom config (browse.continuation landing cursor) cursorBlock snapshotBlock third).run
        (V4Directory.commit config) rest third).1 = .error (.conflict "univ4 catalog generation changed; restart pagination") := by
    intro third rest cursorBlock snapshotBlock differs
    unfold answerFrom
    rw [v4RequestOf_outdated accepted known differs]
    cases rest <;> rfl
  unfold getV4Pools
  rcases schedule with - | ⟨first, - | ⟨second, - | ⟨third, rest⟩⟩⟩
  · exact conflict _ _ _ _ outdated
  · exact conflict _ _ _ _ (by simpa using outdated)
  · exact conflict _ _ _ _ (by simpa [List.foldl_append] using outdated)
  · exact conflict _ _ _ _ (by simpa [List.foldl_append] using outdated)

theorem followV4_outdated (accepted : Accepted browse) (known : landing.catalogGeneration.isSome = true) {cursor : Option Digest}
    (outdated : OutdatedV4 config browse landing later cursor s) (pages : List V4Page) :
    followV4 config browse landing later pages cursor s =
      .interrupted landing (.conflict "univ4 catalog generation changed; restart pagination") := by
  induction later generalizing cursor s pages with
  | nil => cases cursor <;> exact outdated.elim
  | cons schedule later ih =>
    cases cursor with
    | none => exact outdated.elim
    | some cursor =>
      unfold followV4
      unfold OutdatedV4 at outdated
      rcases outdated with now | rest
      · have conflict := getV4Pools_outdated accepted known cursor now
        split
        · rename_i refusal last ran
          rw [ran] at conflict
          cases conflict
          rfl
        · rename_i page last ran
          rw [ran] at conflict
          cases conflict
      · split
        · rename_i refusal last ran
          rw [ran] at rest
          exact rest.elim
        · rename_i page last ran
          rw [ran] at rest
          exact ih rest _

theorem shownV4_append (pages : List V4Page) (page : V4Page) :
    shownV4 (pages ++ [page]) = shownV4 pages ++ page.pools.map V4Pool.poolId := by
  unfold shownV4
  rw [List.flatMap_append, List.flatMap_singleton]

theorem followV4_calm (accepted : Accepted browse) (known : landing.catalogGeneration.isSome = true)
    (safe : 0 < landing.catalogBlock ∧ landing.catalogBlock ≤ maxSafeInteger) (continues : landing.nextCursor ≠ none)
    {landed : V4Directory} {pages : List V4Page} {cursor : Digest} (available : Available config landing.catalogBlock s)
    (agrees : (remaining browse.filter landing.catalogBlock none landed).after (some cursor) =
      (remaining browse.filter landing.catalogBlock (some cursor) s).rows)
    (sofar : shownV4 pages ++ (remaining browse.filter landing.catalogBlock none landed).after (some cursor) =
      (remaining browse.filter landing.catalogBlock none landed).rows) (spent : Nat)
    (budget : ((remaining browse.filter landing.catalogBlock none landed).after (some cursor)).length + spent ≤
      (remaining browse.filter landing.catalogBlock none landed).rows.length)
    (calm : CalmV4 config browse landing later (some cursor) s) :
    UpheldV4 browse (later.length + spent) landed (followV4 config browse landing later pages (some cursor) s) := by
  generalize scope : remaining browse.filter landing.catalogBlock none landed = listed at agrees sofar budget
  induction later generalizing pages cursor s spent with
  | nil =>
    show [].length + spent ≤ (remaining browse.filter landing.catalogBlock none landed).rows.length
    rw [scope, List.length_nil]
    omega
  | cons schedule later ih =>
    obtain ⟨obeys, calm⟩ := calm
    obtain ⟨same, answered⟩ := Reads.run_ensures kept_same obeys (getV4Pools_pages accepted known safe cursor available)
    unfold followV4
    split
    · rename_i refusal last ran
      rw [ran] at answered
      exact answered
    · rename_i page last ran
      rw [ran] at answered same calm
      have paged := answered listed agrees
      dsimp only at paged same calm
      have atLeast := accepted.bounds.1
      cases more : page.nextCursor with
      | none =>
        rw [more] at paged
        have all : shownV4 (pages ++ [page]) = listed.rows := by
          rw [shownV4_append, paged.last atLeast]
          exact sofar
        have done : UpheldV4 browse ((schedule :: later).length + spent) landed (.complete landing (pages ++ [page])) :=
          ⟨fun ends => absurd ends continues, by rw [if_neg continues, scope, all]⟩
        cases later <;> exact done
      | some next =>
        rw [more] at paged calm
        obtain ⟨joins, shrinks⟩ := paged.more atLeast
        have narrowed : listed.after (some next) = (remaining browse.filter landing.catalogBlock (some next) last).rows := by
          have beyond : ∀ k ∈ some cursor, k ≤ next := by
            rintro _ ⟨⟩
            exact paged.rises.le
          rw [remaining_after, Table.after_narrow beyond, Table.after_narrow beyond, agrees, ← remaining_after, same.rows]
        have left : shownV4 (pages ++ [page]) ++ listed.after (some next) = listed.rows := by
          rw [shownV4_append, List.append_assoc, joins]
          exact sofar
        have rest := ih (same.available available) (spent + 1) calm narrowed left (by omega)
        rw [show (schedule :: later).length + spent = later.length + (spent + 1) by rw [List.length_cons]; omega]
        exact rest

theorem landV4_accepts {last : V4Directory} (ran : landV4 config browse schedule start = (.ok landing, last)) : Accepted browse := by
  have free : Reads.Kept (V4Directory.commit config) (fun _ _ => True) (fun _ _ : V4Directory => True) :=
    ⟨fun _ => trivial, fun _ _ => trivial, fun _ _ _ => trivial⟩
  have ensured : (getV4Pools config browse.landing).Ensures (fun _ _ => True)
      (fun answer _ => ∀ page, answer = .ok page → Accepted browse) start := by
    intro atCursor _ atSnapshot _ atGeneration _ atFeatured _
    dsimp only
    split
    · intro page same
      cases same
    · rename_i request told
      intro atCount _ atRows _ atFiller _ page _
      exact (v4RequestOf_landing told).1
  have accepts := Reads.run_ensures (Q := fun answer _ => ∀ page, answer = .ok page → Accepted browse) free
    (Reads.obeys_always (fun _ _ => trivial) (getV4Pools config browse.landing) ([] :: schedule) start) ensured
  unfold landV4 at ran
  rw [ran] at accepts
  exact accepts landing rfl

theorem landV4_lands {last : V4Directory} (pinnable : Pinnable config browse.filter start)
    (obeys : (getV4Pools config browse.landing).Obeys (V4Directory.commit config) (Harmless config browse.filter start.cursorBlock none)
      ([] :: schedule) start) (ran : landV4 config browse schedule start = (.ok landing, last)) :
    Same config browse.filter start.cursorBlock none start last ∧ LandedV4 config browse start last landing := by
  obtain ⟨next, asks, lands⟩ := @getV4Pools_lands _ browse _ pinnable.available pinnable.positive.ne'
  unfold landV4 at ran
  rw [asks] at obeys ran
  obtain ⟨same, landed⟩ := Reads.run_ensures kept_same obeys.2 lands
  have result : (next start).run (V4Directory.commit config) schedule start = (.ok landing, last) := ran
  simp only [List.foldl_nil] at same landed
  rw [result] at same landed
  exact ⟨same, landed landing rfl⟩

/-- A traversal under no disturbance fails with a conflict, or its cursor pages list exactly the matching pools of its
landing response, each once. -/
theorem traverseV4_exact (undisturbed : Undisturbed config browse schedule later start) :
    UpheldV4 browse later.length (landV4 config browse schedule start).2 (traverseV4 config browse schedule later start) := by
  unfold Undisturbed at undisturbed
  unfold traverseV4
  split
  · exact trivial
  · rename_i landing landed ran
    rw [ran] at undisturbed
    rcases undisturbed with ⟨known, outdated⟩ | ⟨pinnable, obeys, calm⟩
    · rw [followV4_outdated (landV4_accepts ran) known outdated]
      exact ⟨_, rfl⟩
    · obtain ⟨same, lands⟩ := landV4_lands pinnable obeys ran
      have honest := lands.honest
      have fence := lands.block
      cases more : landing.nextCursor with
      | none =>
        have done : UpheldV4 browse later.length landed (.complete landing []) := ⟨honest, by rw [if_pos more]; rfl⟩
        rw [ran]
        cases later <;> exact done
      | some cursor =>
        obtain rfl := lands.starts cursor more
        have first : (remaining browse.filter landing.catalogBlock none landed).after (some FIRST_V4_POOL_CURSOR) =
            (remaining browse.filter landing.catalogBlock none landed).rows := by
          refine List.filter_eq_self.mpr fun id member => ?_
          have positive : id ≠ 0 := fun zero => by
            rw [zero, fence, same.rows] at member
            exact pinnable.ids member
          simpa [FIRST_V4_POOL_CURSOR] using Nat.pos_of_ne_zero positive
        rw [more] at calm
        have available := same.available pinnable.available
        rw [← fence] at available
        rw [ran]
        dsimp only
        exact followV4_calm lands.accepted lands.generation (by rw [fence]; exact ⟨pinnable.positive, pinnable.safe⟩) (by rw [more]; simp)
          available (by rw [remaining_after]) (by rw [first]; rfl) 0 (by rw [first]; omega) calm

def frozenConfig : V4Config where
  rpcDirectory := false
  rpc :=
    { poolManager := 99
      tokenFactory := 98
      core := [1, 2]
      tokenGenesisBlock := 1
      poolGenesisBlock := 1
      tokenGenesis_pos := Nat.one_pos
      poolGenesis_pos := Nat.one_pos
      eventPoolId := fun _ _ fee _ _ => fee
      keccak256 := fun identity => identity.issued }
  graph := { poolManager := 99, snapshotGeneration := fun _ _ block hash => block * 1000 + hash }

theorem ordered_example : (1 : Address) < 2 := by decide

def graphPool (id : Digest) : ParsedPool := ⟨id, 1, 2, 10, 0, ordered_example⟩

def freshV4 : V4Directory := ⟨V4Rpc.Store.fresh, none, fun _ => none, none, Table.empty⟩

def publishedV4 : V4Directory :=
  [V4Write.importPage 7 [graphPool 1, graphPool 3] [], .publish 7 10 2].foldl (V4Directory.commit frozenConfig) freshV4

def pageByOne : V4Browse := ⟨none, none, none, some 1⟩

def laterPool : V4Write := .tailWindow 10 [(⟨2, 1, 2, 2, 10, 0⟩, 12)] 12

theorem traverseV4_sample : UpheldV4 pageByOne 3 (landV4 frozenConfig pageByOne [] publishedV4).2
    (traverseV4 frozenConfig pageByOne [] [[], [[laterPool]], []] publishedV4) := by
  refine @traverseV4_exact frozenConfig pageByOne [] [[], [[laterPool]], []] publishedV4 (Or.inr ⟨⟨⟨?_, ?_, ?_⟩, ?_, ?_, ?_⟩, ?_, ?_⟩)
  · exact le_refl _
  · intro block found
    cases found
    decide
  · rfl
  · decide
  · decide
  · decide
  · exact ⟨trivial, trivial⟩
  · refine ⟨trivial, ⟨⟨⟨?_, ?_⟩, trivial⟩, trivial⟩, trivial⟩
    · intro log member
      obtain rfl := List.mem_singleton.mp member
      rfl
    · decide

/-- A page of the next import stores a pool between two pages of the traversal. -/
theorem import_tears_traversal : ¬ UpheldV4 pageByOne 3 (landV4 frozenConfig pageByOne [] publishedV4).2
    (traverseV4 frozenConfig pageByOne [] [[], [[.importPage 8 [graphPool 2] []]], []] publishedV4) := by
  intro upheld
  have pages : [1, 2, 3] = [1, 3] := upheld.2
  cases pages

end LpTerminal.Api
