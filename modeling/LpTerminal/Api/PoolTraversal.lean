import LpTerminal.Api.ServedPools
import LpTerminal.Lib.Keyset

/-!
A traversal of the address pools fails with a conflict or pages through the catalog as its fence found it.
-/

namespace LpTerminal.Api

open Catalog

variable {tune : Tune} {browse : Browse} {filter : Filter} {store store' : Store} {fence limit : Nat} {pool : Pool}

def asked (tune : Tune) (protocols : List PoolProto) : List PoolProto := if protocols ≠ [] then protocols else enabledProtos tune

structure Immutable (tune : Tune) (filter : Filter) : Prop where
  noTvl : filter.minTvl = none
  noSearch : filter.search = none
  enabled : ∀ proto ∈ filter.protocols, proto ∈ enabledProtos tune
  distinct : filter.protocols.Nodup

theorem filterOf_immutable (ran : filterOf tune browse.landing = .ok filter) : Immutable tune filter := by
  unfold filterOf at ran
  obtain ⟨pair, -, ran⟩ := Fallible.bind_ok ran
  obtain ⟨protocols, asks, ran⟩ := Fallible.bind_ok ran
  cases ran
  unfold requestedProtocols at asks
  obtain ⟨-, asks⟩ := Fallible.then_ok.mp asks
  obtain ⟨enabled, asks⟩ := Fallible.then_ok.mp asks
  cases asks
  rw [Fallible.demand_ok] at enabled
  exact ⟨rfl, rfl, fun proto member => enabled proto (List.mem_dedup.mp member), List.nodup_dedup _⟩

theorem enabled_public {proto : PoolProto} (member : proto ∈ enabledProtos tune) : proto.isPublic = true := by
  have listed := List.mem_of_mem_filter member
  revert listed
  cases proto <;> decide

theorem enabled_nodup : (enabledProtos tune).Nodup := List.Nodup.filter _ (by decide)

theorem protoClause_asked {protocols : List PoolProto} :
    protoClause tune protocols pool = decide (pool.proto ∈ asked tune protocols) := by
  unfold protoClause asked
  by_cases named : protocols ≠ []
  · rw [if_pos named, if_pos named]
  · rw [if_neg named, if_neg named]
    by_cases v2 : tune.indexV2
    · rw [if_pos v2]
      cases pool.proto <;> simp [enabledProtos, publicProtos, v2]
    · rw [if_neg v2]

def matching (tune : Tune) (filter : Filter) (pool : Pool) : Bool :=
  pool.proto ∈ asked tune filter.protocols && filter.pair.all fun pair => pool.token0 = pair.1 && pool.token1 = pair.2

theorem poolsWhere_matching (immutable : Immutable tune filter) (market : Market) :
    poolsWhere tune filter market pool = matching tune filter pool := by
  unfold poolsWhere matching
  rw [immutable.noTvl, immutable.noSearch, protoClause_asked]
  simp

theorem asked_public (immutable : Immutable tune filter) {proto : PoolProto} (member : proto ∈ asked tune filter.protocols) :
    proto.isPublic = true := by
  unfold asked at member
  split at member
  · exact enabled_public (immutable.enabled proto member)
  · exact enabled_public member

theorem asked_nodup (immutable : Immutable tune filter) : (asked tune filter.protocols).Nodup := by
  unfold asked
  split
  · exact immutable.distinct
  · exact enabled_nodup

theorem fencedRows_sorted : (fencedRows tune filter fence store).Pairwise fun first second => first.address < second.address :=
  store.catalog.pools.sorted.filter _

def listing (tune : Tune) (filter : Filter) (fence : Nat) (store : Store) : Table (fun address : Address => address) where
  rows := (fencedRows tune filter fence store).map Pool.address
  sorted := List.pairwise_map.mpr fencedRows_sorted

theorem mem_listing (immutable : Immutable tune filter) {address : Address} :
    address ∈ (listing tune filter fence store).rows ↔
      ∃ seen, sight fence store.catalog.pools address = some seen ∧ matching tune filter seen = true := by
  constructor
  · intro member
    obtain ⟨row, inside, rfl⟩ := List.mem_map.mp member
    obtain ⟨stored, both⟩ := List.mem_filter.mp inside
    rw [Bool.and_eq_true, poolsWhere_matching immutable, decide_eq_true_iff] at both
    obtain ⟨fits, below⟩ := both
    have asks : row.proto ∈ asked tune filter.protocols := by
      unfold matching at fits
      rw [Bool.and_eq_true, decide_eq_true_iff] at fits
      exact fits.1
    have seen : within fence (stamp row) = true := by
      rw [within_stamp]
      simp [within, asked_public immutable asks, below]
    refine ⟨stamp row, ?_, fits⟩
    unfold sight
    rw [Table.get?_of_mem stored, Option.map_some, Option.filter_some, if_pos seen]
  · rintro ⟨seen, read, fits⟩
    unfold sight at read
    obtain ⟨found, inside⟩ := Option.filter_eq_some_iff.mp read
    obtain ⟨row, stored, rfl⟩ := Option.map_eq_some_iff.mp found
    rw [within_stamp] at inside
    refine List.mem_map.mpr ⟨row, List.mem_filter.mpr ⟨Table.get?_mem stored, ?_⟩, Table.get?_key stored⟩
    unfold within at inside
    rw [Bool.and_eq_true] at inside ⊢
    rw [poolsWhere_matching immutable]
    exact ⟨fits, inside.2⟩

theorem listing_frozen (immutable : Immutable tune filter) (fences : Fences store.catalog store'.catalog)
    (same : store'.catalog.clock.generation = store.catalog.clock.generation) (reached : fence ≤ store.catalog.clock.nextSeq) :
    listing tune filter fence store' = listing tune filter fence store := by
  refine Table.ext_mem fun address => ?_
  rw [mem_listing immutable, mem_listing immutable, fences.frozen same fence reached address]

theorem sum_population {pools : Table Pool.address} {protocols : List PoolProto} (distinct : protocols.Nodup) :
    (protocols.map (population pools)).sum = pools.rows.countP fun pool => pool.proto ∈ protocols := by
  induction protocols with
  | nil => simp
  | cons first rest ih =>
    obtain ⟨apart, distinct⟩ := List.nodup_cons.mp distinct
    rw [List.map_cons, List.sum_cons, ih distinct]
    unfold population
    generalize pools.rows = rows
    induction rows with
    | nil => rfl
    | cons pool later counted =>
      simp only [List.countP_cons, List.mem_cons, Bool.decide_or] at counted ⊢
      by_cases own : pool.proto = first
      · simp [own, apart]
        omega
      · simp [own]
        omega

theorem fastV23Count_asked (immutable : Immutable tune filter) (noPair : filter.pair = none) (sound : Sound store) (other : Store) :
    fastV23Count tune filter (addressCatalogTotals tune store) other =
      some (exactly (store.catalog.pools.rows.countP fun pool => pool.proto ∈ asked tune filter.protocols)) := by
  unfold fastV23Count
  rw [noPair, immutable.noSearch, immutable.noTvl, ← sum_population (asked_nodup immutable)]
  have own : ∀ proto ∈ enabledProtos tune, addressCatalogTotals tune store proto = population store.catalog.pools proto :=
    fun proto member => by
      unfold addressCatalogTotals
      rw [if_pos member, sound.counted]
  have summed : (publicProtos.map (addressCatalogTotals tune store)).sum =
      ((enabledProtos tune).map (addressCatalogTotals tune store)).sum := by
    unfold addressCatalogTotals enabledProtos publicProtos
    cases tune.indexV2 <;> simp [PoolProto.isV2]
  unfold asked
  by_cases named : filter.protocols ≠ []
  · simp only [if_pos named]
    rw [List.map_congr_left fun proto member => own proto (immutable.enabled proto member)]
    rfl
  · simp only [if_neg named]
    rw [summed, List.map_congr_left own]
    rfl

theorem listing_le_count (immutable : Immutable tune filter) :
    (listing tune filter fence store).rows.length ≤
      store.catalog.pools.rows.countP fun pool => pool.proto ∈ asked tune filter.protocols := by
  unfold listing fencedRows
  rw [List.length_map, ← List.countP_eq_length_filter]
  refine List.countP_mono_left fun pool _ listed => ?_
  rw [Bool.and_eq_true, poolsWhere_matching immutable] at listed
  unfold matching at listed
  rw [Bool.and_eq_true] at listed
  exact listed.1.1

theorem countPools_bounds (immutable : Immutable tune filter) {atTotals atCount : Store} (sound : Sound atTotals) :
    (listing tune filter fence atTotals).rows.length ≤ (countPools tune filter (addressCatalogTotals tune atTotals) fence atCount).n ∨
      (listing tune filter fence atCount).rows.length ≤ (countPools tune filter (addressCatalogTotals tune atTotals) fence atCount).n ∨
      (countPools tune filter (addressCatalogTotals tune atTotals) fence atCount).n = SEARCH_COUNT_CAP := by
  unfold countPools
  by_cases noPair : filter.pair = none
  · rw [fastV23Count_asked immutable noPair sound]
    exact Or.inl (listing_le_count immutable)
  · have slow : fastV23Count tune filter (addressCatalogTotals tune atTotals) atCount = none := by
      unfold fastV23Count
      rw [if_pos]
      rw [Bool.or_eq_true]
      exact Or.inr (Option.isSome_iff_ne_none.mpr noPair)
    rw [slow, Option.getD_none]
    unfold boundedCount
    split
    · exact Or.inr (Or.inr rfl)
    · rename_i few
      refine Or.inr (Or.inl ?_)
      unfold exactly listing
      rw [List.length_map]
      rw [List.length_take] at few ⊢
      dsimp only
      omega

theorem fetchPools_landing (sort : PoolSort) :
    (fetchPools tune filter sort limit fence none store).Subperm (fencedRows tune filter fence store) ∧
      (fetchPools tune filter sort limit fence none store).length ≤ limit := by
  unfold fetchPools
  dsimp only
  split
  · exact ⟨(top_subperm _ _ _).trans List.filter_sublist.subperm, top_length _ _ _⟩
  · exact ⟨top_subperm _ _ _, top_length _ _ _⟩

theorem pageLimit_bounds (params : Params) : 1 ≤ pageLimit params ∧ pageLimit params ≤ MAX_PAGE_LIMIT := by
  unfold pageLimit MAX_PAGE_LIMIT
  omega

def Honest (listed : Table (fun address : Address => address)) (page : PoolsPage) : Prop :=
  page.nextCursor = none → (page.pools.map Pool.address).Perm listed.rows

/-- What an answered landing page says of the moment it read its clock. -/
structure Landed (tune : Tune) (filter : Filter) (start : Store) (page : PoolsPage) : Prop where
  sequence : page.catalogSeq = start.catalog.clock.nextSeq
  generation : page.catalogGeneration = start.catalog.clock.generation
  honest : Honest (listing tune filter page.catalogSeq start) page
  starts : ∀ cursor ∈ page.nextCursor, cursor = FIRST_POOL_CURSOR

theorem fenceOf_landing (clock : CatalogClock) : fenceOf browse.landing clock = .ok clock := by
  unfold fenceOf Fallible.demand Browse.landing
  simp
  rfl

theorem checkedFilter_landing : checkedFilter tune browse.landing = filterOf tune browse.landing := by
  have passes : checkFenceParams browse.landing = .ok () := by
    unfold checkFenceParams Browse.landing
    rw [Fallible.then_ok, Fallible.demand_ok, Fallible.demand_ok]
    exact ⟨Or.inr ⟨rfl, rfl⟩, Or.inl rfl⟩
  unfold checkedFilter
  rw [passes]
  exact bind_pure _

theorem Guarded.between {first second third : Served} (early : Guarded first second) (late : Guarded second third)
    (same : third.store.catalog.clock.generation = first.store.catalog.clock.generation) :
    second.store.catalog.clock.generation = first.store.catalog.clock.generation := by
  have rises := early.fences.advances
  have rises' := late.fences.advances
  omega

theorem pageOf_honest (immutable : Immutable tune filter) {start atTotals atCount atRows : Served} (sort : PoolSort)
    (small : limit ≤ MAX_PAGE_LIMIT) (totals : listing tune filter fence atTotals.store = listing tune filter fence start.store)
    (count : listing tune filter fence atCount.store = listing tune filter fence start.store)
    (rows : listing tune filter fence atRows.store = listing tune filter fence start.store) (clock : CatalogClock) :
    Honest (listing tune filter fence start.store)
      (pageOf none limit (countPools tune filter (addressCatalogTotals tune atTotals.store) fence atCount.store) clock
        (addressCatalogTotals tune atTotals.store) (fetchPools tune filter sort limit fence none atRows.store)) := by
  intro ends
  obtain ⟨inside, short⟩ := @fetchPools_landing tune filter atRows.store fence limit sort
  have bounds := @countPools_bounds tune filter fence immutable atTotals.store atCount.store atTotals.sound
  rw [totals, count] at bounds
  have listed : (fencedRows tune filter fence atRows.store).length = (listing tune filter fence start.store).rows.length := by
    rw [← rows]
    exact (List.length_map _).symm
  have counted : (countPools tune filter (addressCatalogTotals tune atTotals.store) fence atCount.store).n ≤
      (fetchPools tune filter sort limit fence none atRows.store).length := by
    by_contra more
    rw [not_le] at more
    simp [pageOf, more] at ends
  have all : (fencedRows tune filter fence atRows.store).length ≤ (fetchPools tune filter sort limit fence none atRows.store).length := by
    unfold SEARCH_COUNT_CAP at bounds
    unfold MAX_PAGE_LIMIT at bounds small
    omega
  have shown := (inside.perm_of_length_le all).map Pool.address
  rw [← rows]
  exact shown

theorem pageOf_starts {counted : MatchCount} {clock : CatalogClock} {totals : PoolProto → Nat} {fetched : List Pool} {cursor : Address}
    (starts : cursor ∈ (pageOf none limit counted clock totals fetched).nextCursor) : cursor = FIRST_POOL_CURSOR := by
  simp only [pageOf, Option.isSome_none, Bool.false_eq_true, if_false] at starts
  split at starts
  · exact (Option.some.inj starts).symm
  · cases starts

theorem getV23Pools_lands (reads : filterOf tune browse.landing = .ok filter) (immutable : Immutable tune filter) (start : Served) :
    ∃ next, getV23Pools tune browse.landing = .read next ∧
      (next start).Ensures Guarded (fun answer last => Guarded start last ∧
        match answer with
        | .error refusal => ∃ text, refusal = .conflict text
        | .ok page => last.store.catalog.clock.generation = start.store.catalog.clock.generation ∧ Landed tune filter start.store page)
        start := by
  unfold getV23Pools
  rw [checkedFilter_landing, reads]
  refine ⟨_, rfl, ?_⟩
  rw [fenceOf_landing]
  intro atTotals toTotals atCount toCount atRows toRows atEnd toEnd
  have untilCount := toTotals.trans toCount
  have untilRows := untilCount.trans toRows
  dsimp only
  split
  · exact ⟨untilRows.trans toEnd, _, rfl⟩
  · rename_i same
    rw [not_not] at same
    have sameTotals := toTotals.between (toCount.trans (toRows.trans toEnd)) same
    have sameCount := untilCount.between (toRows.trans toEnd) same
    have sameRows := untilRows.between toEnd same
    refine ⟨untilRows.trans toEnd, same, rfl, rfl, ?_, fun cursor starts => ?_⟩
    · exact pageOf_honest immutable browse.landing.sort (pageLimit_bounds _).2
        (listing_frozen immutable toTotals.fences sameTotals (le_refl _))
        (listing_frozen immutable untilCount.fences sameCount (le_refl _))
        (listing_frozen immutable untilRows.fences sameRows (le_refl _)) _
    · exact pageOf_starts starts

theorem pageOf_paged (counted : MatchCount) (clock : CatalogClock) (totals : PoolProto → Nat) (sort : PoolSort) (cursor : Address) :
    let page := pageOf (some cursor) limit counted clock totals (fetchPools tune filter sort limit fence (some cursor) store)
    (listing tune filter fence store).Paged cursor limit (page.pools.map Pool.address) page.nextCursor :=
  Table.paged_fetch rfl rfl

theorem checkedFilter_continuation (landing : PoolsPage) (cursor : Address) :
    checkedFilter tune (browse.continuation landing cursor) = filterOf tune browse.landing := by
  have passes : checkFenceParams (browse.continuation landing cursor) = .ok () := by
    unfold checkFenceParams Browse.continuation
    rw [Fallible.then_ok, Fallible.demand_ok, Fallible.demand_ok]
    exact ⟨Or.inl (by simp), Or.inr (by simp)⟩
  unfold checkedFilter
  rw [passes]
  exact bind_pure _

variable {landing : PoolsPage}

theorem fenceOf_continuation {cursor : Address} {clock : CatalogClock} :
    fenceOf (browse.continuation landing cursor) clock =
      if maxSafeInteger < landing.catalogSeq then .error (.input "invalid v2/v3 catalog_seq")
      else if clock.nextSeq < landing.catalogSeq then
        .error (.conflict "v2/v3 catalog fence is no longer available; restart pagination")
      else if landing.catalogGeneration ≠ clock.generation then
        .error (.conflict "v2/v3 catalog generation changed; restart pagination")
      else .ok { clock with nextSeq := landing.catalogSeq } := by
  unfold fenceOf Fallible.demand Browse.continuation
  simp only [Option.getD_some, reduceCtorEq, false_or]
  by_cases large : maxSafeInteger < landing.catalogSeq
  · rw [if_pos large, if_neg (not_le.mpr large)]
    rfl
  · rw [if_neg large, if_pos (not_lt.mp large)]
    by_cases past : clock.nextSeq < landing.catalogSeq
    · rw [if_pos past, if_neg (not_le.mpr past)]
      rfl
    · rw [if_neg past, if_pos (not_lt.mp past)]
      by_cases same : landing.catalogGeneration = clock.generation
      · rw [if_pos same, if_neg (not_not.mpr same), same]
        rfl
      · rw [if_neg same, if_pos same]
        rfl

theorem getV23Pools_pages (reads : filterOf tune browse.landing = .ok filter) (immutable : Immutable tune filter) {start now : Served}
    (landed : Landed tune filter start.store landing) (reached : Guarded start now) (cursor : Address) :
    (getV23Pools tune (browse.continuation landing cursor)).Ensures Guarded (fun answer last => Guarded start last ∧
      match answer with
      | .error refusal => (∃ text, refusal = .conflict text) ∨ maxSafeInteger < landing.catalogSeq
      | .ok page => last.store.catalog.clock.generation = start.store.catalog.clock.generation ∧
          (listing tune filter landing.catalogSeq start.store).Paged cursor (pageLimit browse.landing) (page.pools.map Pool.address) page.nextCursor)
      now := by
  unfold getV23Pools
  rw [checkedFilter_continuation, reads]
  intro atClock toClock
  have untilClock := reached.trans toClock
  dsimp only
  rw [fenceOf_continuation]
  by_cases large : maxSafeInteger < landing.catalogSeq
  · rw [if_pos large]
    exact ⟨untilClock, Or.inr large⟩
  rw [if_neg large]
  by_cases past : atClock.store.catalog.clock.nextSeq < landing.catalogSeq
  · rw [if_pos past]
    exact ⟨untilClock, Or.inl ⟨_, rfl⟩⟩
  rw [if_neg past]
  by_cases changed : landing.catalogGeneration ≠ atClock.store.catalog.clock.generation
  · rw [if_pos changed]
    exact ⟨untilClock, Or.inl ⟨_, rfl⟩⟩
  rw [if_neg changed]
  rw [not_not, landed.generation] at changed
  intro atTotals toTotals atCount toCount atRows toRows atEnd toEnd
  have untilRows := untilClock.trans (toTotals.trans (toCount.trans toRows))
  dsimp only
  split
  · exact ⟨untilRows.trans toEnd, Or.inl ⟨_, rfl⟩⟩
  · rename_i same
    rw [not_not, ← changed] at same
    have sameRows := untilRows.between toEnd same
    refine ⟨untilRows.trans toEnd, same, ?_⟩
    have frozen := listing_frozen immutable untilRows.fences sameRows (le_of_eq landed.sequence)
    rw [← frozen]
    exact pageOf_paged _ _ _ _ cursor

def shown (pages : List PoolsPage) : List Address := pages.flatMap fun page => page.pools.map Pool.address

def Upheld (tune : Tune) (browse : Browse) (requests : Nat) (start last : Served) : Traversal → Prop
  | .refused refusal => (∃ text, refusal = .conflict text) ∨ filterOf tune browse.landing = .error refusal
  | .interrupted landing refusal => ∃ filter, filterOf tune browse.landing = .ok filter ∧ Landed tune filter start.store landing ∧
      ((∃ text, refusal = .conflict text) ∨ maxSafeInteger < landing.catalogSeq)
  | .unfinished landing => ∃ filter, filterOf tune browse.landing = .ok filter ∧ Landed tune filter start.store landing ∧
      requests ≤ (listing tune filter landing.catalogSeq start.store).rows.length
  | .complete landing pages => ∃ filter, filterOf tune browse.landing = .ok filter ∧ Landed tune filter start.store landing ∧
      listing tune filter landing.catalogSeq last.store = listing tune filter landing.catalogSeq start.store ∧
      last.lost = start.lost ∧
      shown pages = if landing.nextCursor = none then [] else (listing tune filter landing.catalogSeq last.store).rows

theorem followCursor_ensures (reads : filterOf tune browse.landing = .ok filter) (immutable : Immutable tune filter) {start : Served}
    (landed : Landed tune filter start.store landing) (continues : landing.nextCursor ≠ none)
    {requests : Nat} {pages : List PoolsPage} {cursor : Address} {now : Served} (reached : Guarded start now)
    (sofar : shown pages ++ (listing tune filter landing.catalogSeq start.store).after (some cursor) =
      (listing tune filter landing.catalogSeq start.store).rows) (spent : Nat)
    (budget : ((listing tune filter landing.catalogSeq start.store).after (some cursor)).length + spent ≤
      (listing tune filter landing.catalogSeq start.store).rows.length) :
    (followCursor tune browse landing requests pages (some cursor)).Ensures Guarded
      (fun outcome last => Upheld tune browse (requests + spent) start last outcome) now := by
  induction requests generalizing pages cursor now spent with
  | zero => exact ⟨filter, reads, landed, by omega⟩
  | succ requests ih =>
    unfold followCursor
    refine Reads.ensures_bind (Reads.Ensures.mono (getV23Pools_pages reads immutable landed reached cursor) fun answer last answered => ?_)
    obtain ⟨reached, answered⟩ := answered
    cases answer with
    | error refusal => exact ⟨filter, reads, landed, answered⟩
    | ok page =>
      obtain ⟨same, paged⟩ := answered
      have atLeast := (pageLimit_bounds browse.landing).1
      have extended : shown (pages ++ [page]) = shown pages ++ page.pools.map Pool.address := by
        unfold shown
        rw [List.flatMap_append, List.flatMap_singleton]
      dsimp only
      cases more : page.nextCursor with
      | none =>
        have frozen := listing_frozen immutable reached.fences same (le_of_eq landed.sequence)
        rw [more] at paged
        have all : shown (pages ++ [page]) = (listing tune filter landing.catalogSeq start.store).rows := by
          rw [extended, paged.last atLeast]
          exact sofar
        have done : Upheld tune browse (requests + 1 + spent) start last (.complete landing (pages ++ [page])) :=
          ⟨filter, reads, landed, frozen, reached.intact same, by rw [if_neg continues, frozen, all]⟩
        cases requests <;> exact done
      | some next =>
        rw [more] at paged
        obtain ⟨joins, shrinks⟩ := paged.more atLeast
        have left : shown (pages ++ [page]) ++ (listing tune filter landing.catalogSeq start.store).after (some next) =
            (listing tune filter landing.catalogSeq start.store).rows := by
          rw [extended, List.append_assoc, joins]
          exact sofar
        have later := ih reached left (spent + 1) (by omega)
        rw [show requests + (spent + 1) = requests + 1 + spent from by omega] at later
        exact later

theorem after_first (sound : Sound store) :
    (listing tune filter fence store).after (some FIRST_POOL_CURSOR) = (listing tune filter fence store).rows := by
  refine List.filter_eq_self.mpr fun address member => ?_
  obtain ⟨row, inside, rfl⟩ := List.mem_map.mp member
  have sited := sound.sited row (List.mem_of_mem_filter inside)
  simpa [FIRST_POOL_CURSOR] using Nat.pos_of_ne_zero sited

/-- Whatever the writers commit between the reads of a traversal, from the first read of its landing page on: it fails
with a conflict, or its cursor pages list exactly the matching pools of its fence, none of which was lost. -/
theorem traverse_exact (tune : Tune) (browse : Browse) (requests : Nat) (start : Served) (schedule : List (List (List PoolWrite))) :
    Upheld tune browse requests start ((traverse tune browse requests).run Served.commit ([] :: schedule) start).2
      ((traverse tune browse requests).run Served.commit ([] :: schedule) start).1 := by
  have kept : Reads.Kept Served.commit (fun _ _ => True) Guarded :=
    ⟨Guarded.refl, Guarded.trans, fun served writes _ => served.commit_guarded writes⟩
  unfold traverse
  cases reads : filterOf tune browse.landing with
  | error refusal =>
    unfold getV23Pools
    rw [checkedFilter_landing, reads]
    exact Or.inr reads
  | ok filter =>
    have immutable := filterOf_immutable reads
    obtain ⟨next, asks, lands⟩ := getV23Pools_lands reads immutable start
    rw [asks]
    show Upheld tune browse requests start (((next start).bind _).run Served.commit schedule start).2
      (((next start).bind _).run Served.commit schedule start).1
    refine Reads.run_ensures (Q := fun outcome last => Upheld tune browse requests start last outcome) kept
      (Reads.obeys_always (fun _ _ => trivial) _ schedule start) (Reads.ensures_bind (lands.mono fun answer last landing => ?_))
    obtain ⟨reached, landing⟩ := landing
    cases answer with
    | error refusal => exact Or.inl landing
    | ok page =>
      obtain ⟨same, landed⟩ := landing
      cases more : page.nextCursor with
      | none =>
        have frozen := listing_frozen immutable reached.fences same (le_of_eq landed.sequence)
        have done : Upheld tune browse requests start last (.complete page []) :=
          ⟨filter, reads, landed, frozen, reached.intact same, by rw [if_pos more]; rfl⟩
        dsimp only
        rw [more]
        cases requests <;> exact done
      | some cursor =>
        obtain rfl := landed.starts cursor more
        dsimp only
        rw [more]
        have all := @after_first tune filter start.store page.catalogSeq start.sound
        exact followCursor_ensures reads immutable landed (by rw [more]; simp) reached (by rw [all]; rfl) 0 (by rw [all]; omega)

end LpTerminal.Api
