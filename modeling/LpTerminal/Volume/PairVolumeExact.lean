import LpTerminal.Volume.PairVolume
import Mathlib.Algebra.BigOperators.Ring.List
import Mathlib.Data.List.GetD

/-!
A kept family lists the pools of its pair exactly where no v4 pool of the pair has the native coin.
-/

namespace LpTerminal.Volume

open Catalog (PoolProto)

variable {chain : Chain} {input : Input} {store : Store}

def membersOf (families : Families) (key : PairKey) : List MemberSeed := ((families.get? key).map (·.members)).getD []

abbrev Listing := List (PairKey × MemberSeed)

def Listing.of (listing : Listing) (key : PairKey) : List MemberSeed := (listing.filter fun entry => entry.1 = key).map Prod.snd

variable {key : PairKey} {seed : MemberSeed}

theorem Listing.mem_of {listing : Listing} : seed ∈ listing.of key ↔ (key, seed) ∈ listing := by
  unfold Listing.of
  constructor
  · intro member
    obtain ⟨⟨own, _⟩, inside, rfl⟩ := List.mem_map.mp member
    obtain ⟨listed, same⟩ := List.mem_filter.mp inside
    have same : own = key := of_decide_eq_true same
    subst same
    exact listed
  · intro listed
    exact List.mem_map.mpr ⟨_, List.mem_filter.mpr ⟨listed, decide_eq_true rfl⟩, rfl⟩

theorem Listing.of_snoc {listing : Listing} {entry : PairKey × MemberSeed} :
    Listing.of (listing ++ [entry]) key = listing.of key ++ if entry.1 = key then [entry.2] else [] := by
  unfold Listing.of
  rw [List.filter_append, List.map_append]
  congr 1
  by_cases own : entry.1 = key <;> simp [own]

/-- The families hold the listed members, each under its own key. -/
structure Grouped (families : Families) (listing : Listing) : Prop where
  keyed : ∀ key family, families.get? key = some family → family.pairKey = key
  members : ∀ key, membersOf families key = listing.of key

theorem Grouped.empty : Grouped .empty [] := by
  constructor
  case keyed =>
    intro key family found
    cases found
  case members =>
    intro key
    rfl

theorem Grouped.pushed {families : Families} {listing : Listing} (grouped : Grouped families listing) {family : FamilySeed}
    (own : family.pairKey = key) (before : family.members = membersOf families key) :
    Grouped (families.set key (family.push seed)) (listing ++ [(key, seed)]) := by
  constructor
  case keyed =>
    intro other found read
    rw [InsertionMap.get?_set] at read
    split at read
    · rename_i same
      cases read
      exact own.trans same.symm
    · exact grouped.keyed _ _ read
  case members =>
    intro other
    rw [Listing.of_snoc, ← grouped.members]
    unfold membersOf
    rw [InsertionMap.get?_set]
    by_cases same : other = key
    · subst same
      rw [if_pos rfl, if_pos rfl]
      change family.members ++ [seed] = _
      rw [before]
      rfl
    · rw [if_neg same, if_neg (Ne.symm same), List.append_nil]

def Placement.entry (p : Placement) : PairKey × MemberSeed := (p.pairKey, p.seed)

theorem Grouped.into {families : Families} {listing : Listing} (grouped : Grouped families listing) (p : Placement) :
    Grouped (p.into families) (listing ++ [p.entry]) := by
  unfold Placement.into familyFor
  cases found : families.get? (pairKeyOf p.token0 p.token1) with
  | none =>
    refine grouped.pushed rfl ?_
    change [] = ((families.get? (pairKeyOf p.token0 p.token1)).map (·.members)).getD []
    rw [found]
    rfl
  | some family =>
    refine grouped.pushed (grouped.keyed _ _ found) ?_
    change family.members = ((families.get? (pairKeyOf p.token0 p.token1)).map (·.members)).getD []
    rw [found]
    rfl

theorem Grouped.placed {ps : List Placement} {families : Families} {listing : Listing} (grouped : Grouped families listing) :
    Grouped (ps.foldl Placement.into families) (listing ++ ps.map Placement.entry) := by
  induction ps generalizing families listing with
  | nil => simpa using grouped
  | cons p rest ih =>
    rw [List.map_cons, List.append_cons]
    exact ih (grouped.into p)

theorem Grouped.mem_values {families : Families} {listing : Listing} (grouped : Grouped families listing) {family : FamilySeed}
    (member : family ∈ families.values) : families.get? family.pairKey = some family ∧ family.members = listing.of family.pairKey := by
  obtain ⟨⟨key, _⟩, inside, rfl⟩ := List.mem_map.mp member
  have found := InsertionMap.mem_entries.mp inside
  have own := grouped.keyed _ _ found
  dsimp only at own ⊢
  subst own
  refine ⟨found, ?_⟩
  rw [← grouped.members]
  unfold membersOf
  rw [found]
  rfl

theorem Grouped.present {families : Families} {listing : Listing} (grouped : Grouped families listing)
    (listed : (key, seed) ∈ listing) : ∃ family, families.get? key = some family ∧ family.pairKey = key ∧ family.members = listing.of key := by
  have member := Listing.mem_of.mpr listed
  rw [← grouped.members] at member
  cases found : families.get? key with
  | none =>
    unfold membersOf at member
    rw [found] at member
    cases member
  | some family =>
    refine ⟨family, rfl, grouped.keyed _ _ found, ?_⟩
    rw [← grouped.members]
    unfold membersOf
    rw [found]
    rfl

variable {identity : Identity}

theorem Grouped.mem_seeded {families : Families} {listing : Listing} (grouped : Grouped families listing) :
    identity ∈ Families.seeded families ↔ identity ∈ listing.map fun entry => entry.2.identity := by
  unfold Families.seeded
  constructor
  · intro inside
    obtain ⟨family, member, inside⟩ := List.mem_flatMap.mp inside
    obtain ⟨seed, held, rfl⟩ := List.mem_map.mp inside
    rw [(grouped.mem_values member).2] at held
    exact List.mem_map.mpr ⟨_, Listing.mem_of.mp held, rfl⟩
  · intro inside
    obtain ⟨⟨key, seed⟩, listed, rfl⟩ := List.mem_map.mp inside
    obtain ⟨family, found, _, members⟩ := grouped.present listed
    refine List.mem_flatMap.mpr ⟨family, List.mem_map.mpr ⟨_, InsertionMap.mem_entries.mpr found, rfl⟩, ?_⟩
    rw [members]
    exact List.mem_map.mpr ⟨seed, Listing.mem_of.mpr listed, rfl⟩

variable {row : V4MemberRow}

theorem Grouped.v4Into {families : Families} {listing : Listing} (grouped : Grouped families listing)
    (listed : (row.pairKey chain, seed) ∈ listing) :
    Grouped (v4Into chain input store families row) (listing ++ [(row.pairKey chain, v4Seed input store row)]) := by
  obtain ⟨family, found, own, members⟩ := grouped.present listed
  unfold Volume.v4Into
  rw [found]
  exact grouped.pushed own (members.trans (grouped.members _).symm)

theorem Grouped.v4Rows {rows : List V4MemberRow} {families : Families} {listing : Listing} (grouped : Grouped families listing)
    (listed : ∀ row ∈ rows, ∃ seed, (row.pairKey chain, seed) ∈ listing) :
    Grouped (rows.foldl (Volume.v4Into chain input store) families)
      (listing ++ rows.map fun row => (row.pairKey chain, v4Seed input store row)) := by
  induction rows generalizing families listing with
  | nil => simpa using grouped
  | cons row rest ih =>
    obtain ⟨seed, present⟩ := listed row List.mem_cons_self
    rw [List.map_cons, List.append_cons]
    refine ih (grouped.v4Into present) fun other member => ?_
    obtain ⟨seed, present⟩ := listed other (List.mem_cons_of_mem _ member)
    exact ⟨seed, List.mem_append_left _ present⟩

def V4MemberRow.rawKey (row : V4MemberRow) : PairKey := pairKeyOf row.currency0 row.currency1

theorem pairKeyOf_comm (a b : Address) : pairKeyOf a b = pairKeyOf b a := by
  unfold pairKeyOf
  rcases lt_trichotomy a b with lt | rfl | gt
  · rw [if_pos lt, if_neg lt.asymm]
  · rfl
  · rw [if_neg gt.asymm, if_pos gt]

theorem pairKeyOf_cases (a b : Address) : pairKeyOf a b = (a, b) ∨ pairKeyOf a b = (b, a) := by
  unfold pairKeyOf
  split
  · exact .inl rfl
  · exact .inr rfl

theorem pairKeyOf_own (a b : Address) : pairKeyOf (pairKeyOf a b).1 (pairKeyOf a b).2 = pairKeyOf a b := by
  rcases pairKeyOf_cases a b with same | same
  · rw [same, same]
  · rw [same, pairKeyOf_comm, same]

theorem mem_v4MembersForKeys {keys : List PairKey} (made : ∀ key ∈ keys, pairKeyOf key.1 key.2 = key) :
    row ∈ v4MembersForKeys store keys ↔ row ∈ store.v4_pools.rows ∧ row.rawKey ∈ keys := by
  unfold v4MembersForKeys
  simp only [List.mem_flatMap, List.mem_append, List.mem_filter, decide_eq_true_eq]
  constructor
  · rintro ⟨⟨a, b⟩, member, (⟨stored, rfl, rfl⟩ | ⟨stored, rfl, rfl⟩)⟩
    · refine ⟨stored, ?_⟩
      rw [V4MemberRow.rawKey, made _ member]
      exact member
    · refine ⟨stored, ?_⟩
      rw [V4MemberRow.rawKey, pairKeyOf_comm, made _ member]
      exact member
  · rintro ⟨stored, member⟩
    refine ⟨row.rawKey, member, ?_⟩
    rcases pairKeyOf_cases row.currency0 row.currency1 with same | same
    · rw [V4MemberRow.rawKey, same]
      exact .inl ⟨stored, rfl, rfl⟩
    · rw [V4MemberRow.rawKey, same]
      exact .inr ⟨stored, rfl, rfl⟩

theorem v4MembersForKeys_apart {keys : List PairKey} (distinct : keys.Nodup) (made : ∀ key ∈ keys, pairKeyOf key.1 key.2 = key) :
    (v4MembersForKeys store keys).Nodup := by
  have rows : store.v4_pools.rows.Nodup := (Table.rows_apart _).imp fun apart same => apart (congrArg _ same)
  refine List.nodup_flatMap.mpr ⟨fun key member => ?_, ?_⟩
  · refine List.nodup_append.mpr ⟨rows.filter _, rows.filter _, ?_⟩
    rintro row left _ right rfl
    simp only [List.mem_filter, decide_eq_true_eq] at left right
    have order := store.sorted row left.1
    rw [left.2.1, left.2.2, ← right.2.1, right.2.1] at order
    have order' := store.sorted row left.1
    rw [right.2.1, right.2.2] at order'
    exact order.asymm order'
  · refine distinct.pairwise_of_forall_ne fun first left second right different => ?_
    intro row inFirst inSecond
    have mem : ∀ key ∈ keys, row ∈ (store.v4_pools.rows.filter (fun row => row.currency0 = key.1 ∧ row.currency1 = key.2) ++
        store.v4_pools.rows.filter (fun row => row.currency0 = key.2 ∧ row.currency1 = key.1)) → row.rawKey = key := by
      intro key member inside
      rcases List.mem_append.mp inside with inside | inside
      · obtain ⟨_, own⟩ := List.mem_filter.mp inside
        obtain ⟨left, right⟩ := of_decide_eq_true own
        rw [V4MemberRow.rawKey, left, right, made _ member]
      · obtain ⟨_, own⟩ := List.mem_filter.mp inside
        obtain ⟨left, right⟩ := of_decide_eq_true own
        rw [V4MemberRow.rawKey, left, right, pairKeyOf_comm, made _ member]
    exact different ((mem _ left inFirst).symm.trans (mem _ right inSecond))

variable {p : Placement}

theorem univ3Placement_address {candidate : Univ3CandidateLite} (made : univ3Placement input candidate = some p) :
    p.seed.identity = .address candidate.address := by
  unfold univ3Placement at made
  split at made
  · cases made
    rfl
  · cases made

theorem seedPlacements_address (placed : p ∈ seedPlacements input) : ∃ address, p.seed.identity = .address address := by
  rcases List.mem_append.mp placed with up33 | univ3
  · obtain ⟨pool, _, rfl⟩ := List.mem_map.mp up33
    exact ⟨pool.id, rfl⟩
  · obtain ⟨candidate, _, made⟩ := List.mem_filterMap.mp univ3
    exact ⟨candidate.address, univ3Placement_address made⟩

def Placement.wrapped (p : Placement) : Prop := p.token0 ≠ zeroAddress ∧ p.token1 ≠ zeroAddress

theorem seedPlacements_wrapped (member : p ∈ seedPlacements input) : p.wrapped := by
  rcases List.mem_append.mp member with up33 | univ3
  · obtain ⟨pool, listed, rfl⟩ := List.mem_map.mp up33
    exact input.subgraphTokens pool listed
  · obtain ⟨candidate, listed, made⟩ := List.mem_filterMap.mp univ3
    have tokens := input.candidateTokens candidate listed
    unfold univ3Placement at made
    split at made
    · rename_i token0 token1 first more left right candles
      cases made
      rw [left, right] at tokens
      exact ⟨fun same => tokens.1 (congrArg some same), fun same => tokens.2 (congrArg some same)⟩
    · cases made

theorem canonicalCurrency_wrapped {currency : Address} (wrapped : currency ≠ zeroAddress) : canonicalCurrency chain currency = currency :=
  if_neg wrapped

theorem pairKeyOf_wrapped {a b c d : Address} (same : pairKeyOf a b = pairKeyOf c d) (wrapped : c ≠ zeroAddress ∧ d ≠ zeroAddress) :
    a ≠ zeroAddress ∧ b ≠ zeroAddress := by
  rcases pairKeyOf_cases a b with left | left <;> rcases pairKeyOf_cases c d with right | right
  all_goals
    rw [left, right] at same
    cases same
  · exact wrapped
  · exact wrapped.symm
  · exact wrapped.symm
  · exact wrapped

def V4MemberRow.wrapped (row : V4MemberRow) : Prop := row.currency0 ≠ zeroAddress ∧ row.currency1 ≠ zeroAddress

theorem V4MemberRow.wrapped.pairKey (wrapped : row.wrapped) : row.pairKey chain = row.rawKey := by
  unfold V4MemberRow.pairKey V4MemberRow.rawKey pairKeyFromCurrencies
  rw [canonicalCurrency_wrapped wrapped.1, canonicalCurrency_wrapped wrapped.2]

/-- A pool of the pair that needs no lookup: one of UP33's, or a v3 candidate with its tokens and candles. -/
inductive Seeded (input : Input) (key : PairKey) (address : Address) : Prop
  | up33 (pool : SubgraphPoolLite) (listed : pool ∈ input.subgraphPools) (own : pool.id = address)
      (pair : pairKeyOf pool.token0.id pool.token1.id = key)
  | univ3 (candidate : Univ3CandidateLite) (listed : candidate ∈ input.univ3Candidates) (own : candidate.address = address)
      (token0 token1 : Address) (left : candidate.token0 = some token0) (right : candidate.token1 = some token1)
      (first : Candle) (more : List Candle) (candles : input.univ3Candles address = some (first :: more))
      (pair : pairKeyOf token0 token1 = key)

theorem seeded_iff {address : Address} :
    Seeded input key address ↔ ∃ p ∈ seedPlacements input, p.pairKey = key ∧ p.seed.identity = .address address := by
  constructor
  · intro seeded
    cases seeded with
    | up33 pool listed own pair =>
      exact ⟨up33Placement input pool, List.mem_append_left _ (List.mem_map_of_mem listed), pair, congrArg Identity.address own⟩
    | univ3 candidate listed own token0 token1 left right first more candles pair =>
      subst own
      have made : ∃ p, univ3Placement input candidate = some p ∧ p.pairKey = key := by
        unfold univ3Placement
        rw [left, right, candles]
        exact ⟨_, rfl, pair⟩
      obtain ⟨p, made, pair⟩ := made
      exact ⟨p, List.mem_append_right _ (List.mem_filterMap.mpr ⟨candidate, listed, made⟩), pair, univ3Placement_address made⟩
  · rintro ⟨p, placed, pair, own⟩
    rcases List.mem_append.mp placed with up33 | univ3
    · obtain ⟨pool, listed, rfl⟩ := List.mem_map.mp up33
      exact .up33 pool listed (Identity.address.inj own) pair
    · obtain ⟨candidate, listed, made⟩ := List.mem_filterMap.mp univ3
      have same := Identity.address.inj ((univ3Placement_address made).symm.trans own)
      subst same
      unfold univ3Placement at made
      split at made
      · rename_i token0 token1 first more left right candles
        cases made
        exact .univ3 candidate listed rfl token0 token1 left right first more candles pair
      · cases made

def SeedRanked (input : Input) (key : PairKey) : Prop := ∃ address, Seeded input key address ∧ input.rankedIdentities (.address address)

theorem seedRanked_iff :
    SeedRanked input key ↔ ∃ p ∈ seedPlacements input, p.pairKey = key ∧ input.rankedIdentities p.seed.identity := by
  unfold SeedRanked
  constructor
  · rintro ⟨address, seeded, ranked⟩
    obtain ⟨p, placed, pair, own⟩ := seeded_iff.mp seeded
    exact ⟨p, placed, pair, own ▸ ranked⟩
  · rintro ⟨p, placed, pair, ranked⟩
    obtain ⟨address, own⟩ := seedPlacements_address placed
    exact ⟨address, seeded_iff.mpr ⟨p, placed, pair, own⟩, own ▸ ranked⟩

def seedFamilies (input : Input) : Families := (seedPlacements input).foldl Placement.into .empty

def seedListing (input : Input) : Listing := (seedPlacements input).map Placement.entry

theorem seedFamilies_grouped : Grouped (seedFamilies input) (seedListing input) := by
  have grouped := @Grouped.placed (seedPlacements input) _ _ Grouped.empty
  rwa [List.nil_append] at grouped

def keptCandidates (input : Input) : List PairKey := ((seedFamilies input).values.filter (·.ranked input)).map (·.pairKey)

theorem mem_keptCandidates : key ∈ keptCandidates input ↔ SeedRanked input key := by
  rw [seedRanked_iff]
  unfold keptCandidates FamilySeed.ranked
  constructor
  · intro member
    obtain ⟨family, kept, rfl⟩ := List.mem_map.mp member
    obtain ⟨inside, ranked⟩ := List.mem_filter.mp kept
    obtain ⟨seed, held, ranked⟩ := List.any_eq_true.mp ranked
    rw [(seedFamilies_grouped.mem_values inside).2] at held
    obtain ⟨p, placed, same⟩ := List.mem_map.mp (Listing.mem_of.mp held)
    obtain ⟨own, rfl⟩ := Prod.ext_iff.mp same
    exact ⟨p, placed, own, ranked⟩
  · rintro ⟨p, placed, rfl, ranked⟩
    have listed : (p.pairKey, p.seed) ∈ seedListing input := List.mem_map_of_mem placed
    obtain ⟨family, found, own, members⟩ := seedFamilies_grouped.present listed
    have inside : family ∈ (seedFamilies input).values := List.mem_map.mpr ⟨_, InsertionMap.mem_entries.mpr found, rfl⟩
    refine List.mem_map.mpr ⟨family, List.mem_filter.mpr ⟨inside, List.any_eq_true.mpr ⟨p.seed, ?_, ranked⟩⟩, own⟩
    rw [members]
    exact Listing.mem_of.mpr listed

theorem keptCandidates_nodup : (keptCandidates input).Nodup := by
  have keys : (seedFamilies input).values.map (·.pairKey) = (seedFamilies input).entries.map Prod.fst := by
    rw [InsertionMap.values, List.map_map]
    refine List.map_congr_left fun entry inside => ?_
    exact seedFamilies_grouped.keyed _ _ (InsertionMap.mem_entries.mp inside)
  have apart := (seedFamilies input).apart
  rw [← keys] at apart
  exact apart.sublist (List.filter_sublist.map _)

theorem keptCandidates_made (member : key ∈ keptCandidates input) : pairKeyOf key.1 key.2 = key := by
  obtain ⟨p, _, rfl, _⟩ := seedRanked_iff.mp (mem_keptCandidates.mp member)
  exact pairKeyOf_own _ _

def foundRows (input : Input) (store : Store) : List V4MemberRow := v4MembersForKeys store (keptCandidates input)

theorem mem_foundRows (chain : Chain) :
    row ∈ foundRows input store ↔ row ∈ store.v4_pools.rows ∧ row.wrapped ∧ SeedRanked input (row.pairKey chain) := by
  unfold foundRows
  rw [mem_v4MembersForKeys fun key member => keptCandidates_made member, mem_keptCandidates]
  constructor
  · rintro ⟨stored, ranked⟩
    have wrapped : row.wrapped := by
      obtain ⟨p, placed, same, _⟩ := seedRanked_iff.mp ranked
      exact pairKeyOf_wrapped same.symm (seedPlacements_wrapped placed)
    rw [wrapped.pairKey]
    exact ⟨stored, wrapped, ranked⟩
  · rintro ⟨stored, wrapped, ranked⟩
    rw [wrapped.pairKey] at ranked
    exact ⟨stored, ranked⟩

def v4Listing (chain : Chain) (input : Input) (store : Store) : Listing :=
  (foundRows input store).map fun row => (row.pairKey chain, v4Seed input store row)

def v4Families (chain : Chain) (input : Input) (store : Store) : Families := v4Leg chain input store (seedFamilies input)

theorem v4Families_grouped : Grouped (v4Families chain input store) (seedListing input ++ v4Listing chain input store) := by
  refine seedFamilies_grouped.v4Rows fun row member => ?_
  obtain ⟨_, _, ranked⟩ := (mem_foundRows chain).mp member
  obtain ⟨p, placed, same, _⟩ := seedRanked_iff.mp ranked
  exact ⟨p.seed, List.mem_map.mpr ⟨p, placed, congrArg (fun key => (key, p.seed)) same⟩⟩

/-- A pool of the catalog's top that has the days, and that no earlier leg lists. -/
structure Qualifying (input : Input) (store : Store) (row : PoolRow) : Prop where
  top : row ∈ topPools store
  days : SNAPSHOT_MIN_DAYS ≤ (snapshotDaily input store row).length
  unseeded : ∀ key, ¬ Seeded input key row.address

theorem mem_snapshotPlacements {seeded : List Identity} {rows : List PoolRow} (apart : (rows.map (·.address)).Nodup) :
    p ∈ snapshotPlacements input store seeded rows ↔ ∃ row ∈ rows, .address row.address ∉ seeded ∧
      SNAPSHOT_MIN_DAYS ≤ (snapshotDaily input store row).length ∧ snapshotPlacement input store row = p := by
  induction rows generalizing seeded with
  | nil => simp [snapshotPlacements]
  | cons row rest ih =>
    obtain ⟨own, others⟩ := List.nodup_cons.mp apart
    unfold snapshotPlacements
    split
    · rename_i known
      rw [ih others]
      simp [known]
    · rename_i new
      split
      · rename_i few
        rw [ih others]
        simp [not_le.mpr few]
      · rename_i enough
        have further : ∀ other ∈ rest, Identity.address other.address ∉ Identity.address row.address :: seeded ↔
            Identity.address other.address ∉ seeded := by
          intro other member
          have different : other.address ≠ row.address := fun same => own (List.mem_map.mpr ⟨other, member, same⟩)
          simp [different]
        rw [List.mem_cons, ih others]
        constructor
        · rintro (rfl | ⟨other, member, fresh, rest⟩)
          · exact ⟨row, List.mem_cons_self, new, not_lt.mp enough, rfl⟩
          · exact ⟨other, List.mem_cons_of_mem _ member, (further other member).mp fresh, rest⟩
        · rintro ⟨other, member, fresh, measured, same⟩
          rcases List.mem_cons.mp member with rfl | later
          · exact .inl same.symm
          · exact .inr ⟨other, later, (further other later).mpr fresh, measured, same⟩

theorem snapshotPlacements_apart {seeded : List Identity} {rows : List PoolRow} (apart : (rows.map (·.address)).Nodup) :
    ((snapshotPlacements input store seeded rows).map (·.seed.identity)).Nodup := by
  induction rows generalizing seeded with
  | nil => exact List.nodup_nil
  | cons row rest ih =>
    obtain ⟨own, others⟩ := List.nodup_cons.mp apart
    unfold snapshotPlacements
    split
    · exact ih others
    · split
      · exact ih others
      · refine List.nodup_cons.mpr ⟨fun inside => ?_, ih others⟩
        obtain ⟨p, placed, same⟩ := List.mem_map.mp inside
        obtain ⟨other, _, fresh, _, rfl⟩ := (mem_snapshotPlacements others).mp placed
        exact fresh (List.mem_cons.mpr (.inl same))

theorem topPools_apart : ((topPools store).map (·.address)).Nodup := by
  have apart : ∀ kept : PoolRow → Bool, ((store.pools.rows.filter kept).map (·.address)).Nodup := fun kept =>
    List.pairwise_map.mpr ((Table.rows_apart store.pools).filter kept)
  unfold topPools
  refine List.Nodup.sublist ((List.take_sublist _ _).map _) ?_
  exact ((List.mergeSort_perm _ _).map _).nodup_iff.mpr (apart _)

def snapshotListing (chain : Chain) (input : Input) (store : Store) : Listing :=
  (snapshotPlacements input store (v4Families chain input store).seeded (topPools store)).map Placement.entry

def listing (chain : Chain) (input : Input) (store : Store) : Listing :=
  seedListing input ++ v4Listing chain input store ++ snapshotListing chain input store

theorem families_grouped : Grouped (families chain input store) (listing chain input store) := v4Families_grouped.placed

theorem mem_snapshotListing {entry : PairKey × MemberSeed} :
    entry ∈ snapshotListing chain input store ↔
      ∃ row, Qualifying input store row ∧ (snapshotPlacement input store row).entry = entry := by
  unfold snapshotListing
  constructor
  · intro member
    obtain ⟨p, placed, rfl⟩ := List.mem_map.mp member
    obtain ⟨row, top, fresh, days, rfl⟩ := (mem_snapshotPlacements topPools_apart).mp placed
    rw [v4Families_grouped.mem_seeded, List.map_append] at fresh
    refine ⟨row, ⟨top, days, fun key seeded => fresh (List.mem_append_left _ ?_)⟩, rfl⟩
    obtain ⟨p, placed, _, own⟩ := seeded_iff.mp seeded
    exact List.mem_map.mpr ⟨p.entry, List.mem_map_of_mem placed, own⟩
  · rintro ⟨row, ⟨top, days, unseeded⟩, rfl⟩
    refine List.mem_map_of_mem ((mem_snapshotPlacements topPools_apart).mpr ⟨row, top, ?_, days, rfl⟩)
    rw [v4Families_grouped.mem_seeded, List.map_append]
    intro inside
    rcases List.mem_append.mp inside with seed | v4
    · obtain ⟨_, listed, same⟩ := List.mem_map.mp seed
      obtain ⟨p, placed, rfl⟩ := List.mem_map.mp listed
      exact unseeded p.pairKey (seeded_iff.mpr ⟨p, placed, rfl, same⟩)
    · obtain ⟨_, listed, same⟩ := List.mem_map.mp v4
      obtain ⟨_, _, rfl⟩ := List.mem_map.mp listed
      cases same

theorem seedListing_apart : ((seedListing input).map fun entry => entry.2.identity).Nodup := by
  have kept : ∀ candidates : List Univ3CandidateLite, ((candidates.filterMap (univ3Placement input)).map (·.seed.identity)).Sublist
      (candidates.map fun candidate => Identity.address candidate.address) := by
    intro candidates
    induction candidates with
    | nil => exact List.Sublist.refl _
    | cons candidate rest ih =>
      cases made : univ3Placement input candidate with
      | none =>
        rw [List.filterMap_cons_none made]
        exact ih.cons _
      | some p =>
        rw [List.filterMap_cons_some made]
        rw [List.map_cons, univ3Placement_address made]
        exact ih.cons_cons _
  have ids := input.apart.map (f := Identity.address) fun first second same => by cases same; rfl
  rw [List.map_append, List.map_map, List.map_map] at ids
  unfold seedListing seedPlacements
  rw [List.map_map, List.map_append, List.map_map]
  exact ids.sublist (List.Sublist.append (List.Sublist.refl _) (kept _))

theorem listing_apart : ((listing chain input store).map fun entry => entry.2.identity).Nodup := by
  unfold listing
  rw [List.map_append, List.map_append]
  refine List.nodup_append.mpr ⟨List.nodup_append.mpr ⟨seedListing_apart, ?_, ?_⟩, ?_, ?_⟩
  · unfold v4Listing
    rw [List.map_map]
    refine List.Nodup.map_on ?_ (v4MembersForKeys_apart keptCandidates_nodup fun key member => keptCandidates_made member)
    intro first left second right same
    exact Table.eq_of_key ((mem_foundRows chain).mp left).1 ((mem_foundRows chain).mp right).1
      (Identity.poolId.inj same)
  · rintro _ seed _ v4 rfl
    obtain ⟨_, listed, same⟩ := List.mem_map.mp v4
    obtain ⟨row, _, rfl⟩ := List.mem_map.mp listed
    obtain ⟨_, listed, same'⟩ := List.mem_map.mp seed
    obtain ⟨p, placed, rfl⟩ := List.mem_map.mp listed
    obtain ⟨address, own⟩ := seedPlacements_address placed
    change p.seed.identity = _ at same'
    rw [same', ← same] at own
    cases own
  · unfold snapshotListing
    rw [List.map_map]
    exact snapshotPlacements_apart topPools_apart
  · rintro _ earlier _ snapshot rfl
    obtain ⟨_, listed, same⟩ := List.mem_map.mp snapshot
    obtain ⟨p, placed, rfl⟩ := List.mem_map.mp listed
    obtain ⟨row, _, fresh, _, rfl⟩ := (mem_snapshotPlacements topPools_apart).mp placed
    rw [v4Families_grouped.mem_seeded, List.map_append] at fresh
    rw [← same] at earlier
    exact fresh earlier

def PairVolumeMember.volumeAt (m : PairVolumeMember) (i : Nat) : NNRat := (m.dailyVol.getD i none).getD 0

def PairVolumeMember.shareAt (m : PairVolumeMember) (i : Nat) : NNRat := (m.share.getD i none).getD 0

theorem finitePos_getD (v : Option NNRat) : (finitePos v).getD 0 = v.getD 0 := by
  cases v with
  | none => rfl
  | some vol =>
    by_cases positive : 0 < vol
    · simp [finitePos, Option.filter_some, positive]
    · simp [finitePos, Option.filter_some, nonpos_iff_eq_zero.mp (not_lt.mp positive)]

theorem reported_sum (vols : List (List (Option NNRat))) (i : Nat) :
    (reported vols i).sum = (vols.map fun series => (series.getD i none).getD 0).sum := by
  unfold reported
  induction vols with
  | nil => rfl
  | cons series rest ih =>
    rw [List.map_cons, List.sum_cons, ← finitePos_getD, ← ih]
    cases read : finitePos (series.getD i none) with
    | none => rw [List.filterMap_cons, read, Option.getD_none, zero_add]
    | some vol => rw [List.filterMap_cons, read, List.sum_cons, Option.getD_some]

variable {vols : List (List (Option NNRat))} {i : Nat}

theorem reported_pos {vol : NNRat} (member : vol ∈ reported vols i) : 0 < vol := by
  obtain ⟨_, _, read⟩ := List.mem_filterMap.mp member
  exact of_decide_eq_true (Option.filter_eq_some_iff.mp read).2

theorem reported_eq_nil : reported vols i = [] ↔ (reported vols i).sum = 0 := by
  constructor
  · intro none
    rw [none, List.sum_nil]
  · intro zero
    refine List.eq_nil_iff_forall_not_mem.mpr fun vol member => ?_
    have bound := List.single_le_sum (fun other _ => NNRat.coe_nonneg other) vol member
    exact absurd (reported_pos member) (not_lt.mpr (zero ▸ bound))

theorem le_longest {series : List (Option NNRat)} (member : series ∈ vols) :
    series.length ≤ longest vols := by
  unfold longest
  induction vols with
  | nil => cases member
  | cons first rest ih =>
    rcases List.mem_cons.mp member with rfl | later
    · exact le_max_left _ _
    · exact (ih later).trans (le_max_right _ _)

theorem beyond_longest (beyond : longest vols ≤ i) : reported vols i = [] := by
  refine List.filterMap_eq_nil_iff.mpr fun series member => ?_
  rw [List.getD_eq_default _ _ ((le_longest member).trans beyond)]
  rfl

theorem pairTotals_at (vols : List (List (Option NNRat))) (i : Nat) :
    (pairTotals vols).getD i none = if (reported vols i).sum = 0 then none else some (reported vols i).sum := by
  by_cases within : i < longest vols
  · simp [pairTotals, List.getD, within, reported_eq_nil]
  · rw [beyond_longest (not_lt.mp within)]
    simp [pairTotals, List.getD, within]

theorem sharesOf_at {series : List (Option NNRat)} (member : series ∈ vols) (i : Nat) :
    (sharesOf vols series).getD i none = (finitePos (series.getD i none)).map (· / (reported vols i).sum) := by
  by_cases within : i < longest vols
  · simp only [sharesOf, List.getD, List.getElem?_map, List.getElem?_range within, Option.map_some, Option.getD_some]
    split
    · rfl
    · rename_i unmeasured
      have empty := reported_eq_nil.mpr (nonpos_iff_eq_zero.mp (not_lt.mp unmeasured))
      have own : finitePos (series.getD i none) = none := List.filterMap_eq_nil_iff.mp empty series member
      rw [List.getD] at own
      rw [own]
      rfl
  · rw [List.getD_eq_default _ _ ((le_longest member).trans (not_lt.mp within))]
    simp [sharesOf, List.getD, within, finitePos]

theorem sharesOf_sum (measured : (reported vols i).sum ≠ 0) :
    (vols.map fun series => ((sharesOf vols series).getD i none).getD 0).sum = 1 := by
  have parts : ∀ series ∈ vols, ((sharesOf vols series).getD i none).getD 0 =
      (series.getD i none).getD 0 * (reported vols i).sum⁻¹ := by
    intro series member
    rw [sharesOf_at member, ← finitePos_getD (series.getD i none)]
    cases finitePos (series.getD i none) with
    | none => simp
    | some vol => simp [div_eq_mul_inv]
  rw [List.map_congr_left parts, List.sum_map_mul_right, ← reported_sum]
  exact mul_inv_cancel₀ measured

def PairVolumePayload.identities (payload : PairVolumePayload) : List Identity := payload.pools.map (·.identity)

def wrappedSeries (chain : Chain) (input : Input) (store : Store) (row : V4MemberRow) : Series :=
  v4Series store (fun currency => store.priceOf (canonicalCurrency chain currency)) input.nowTs row

structure Exact (chain : Chain) (input : Input) (store : Store) (payload : PairVolumePayload) : Prop where
  members : ∀ identity, identity ∈ payload.identities ↔
    (∃ address, Seeded input payload.pairKey address ∧ identity = .address address) ∨
    (∃ row, Qualifying input store row ∧ pairKeyOf row.token0 row.token1 = payload.pairKey ∧ identity = .address row.address) ∨
    (∃ other ∈ payload.identities, input.rankedIdentities other) ∧
      ∃ row ∈ store.v4_pools.rows, row.pairKey chain = payload.pairKey ∧ identity = .poolId row.pool_id
  once : payload.identities.Nodup
  alone : ∀ other ∈ (buildPairVolumeSnapshot chain input store).pairs.values, other.pairKey ≠ payload.pairKey →
    ∀ identity ∈ payload.identities, identity ∉ other.identities
  routed : ∀ identity ∈ payload.identities,
    (buildPairVolumeSnapshot chain input store).byPool.get? identity = some payload.pairKey
  totals : ∀ i, payload.pairTotal.getD i none =
    if (payload.pools.map (·.volumeAt i)).sum = 0 then none else some (payload.pools.map (·.volumeAt i)).sum
  shares : ∀ i, (payload.pools.map (·.volumeAt i)).sum ≠ 0 → (payload.pools.map (·.shareAt i)).sum = 1
  reporting : ∀ i, ∀ m ∈ payload.pools, (m.share.getD i none).isSome ↔ 0 < m.volumeAt i
  native : ∀ m ∈ payload.pools, ∀ row ∈ store.v4_pools.rows, m.identity = .poolId row.pool_id →
    m.dailyVol = align (dayStartSec input.nowTs) (wrappedSeries chain input store row)

/-- The v4 rows of the pair that the build does not look for are not there. -/
structure Attributed (chain : Chain) (input : Input) (store : Store) (key : PairKey) : Prop where
  seeded : SeedRanked input key → ∀ row ∈ store.v4_pools.rows, row.pairKey chain = key → row.wrapped
  snapshot : ¬ SeedRanked input key →
    (∃ row, Qualifying input store row ∧ pairKeyOf row.token0 row.token1 = key ∧ input.rankedIdentities (.address row.address)) →
    ∀ row ∈ store.v4_pools.rows, row.pairKey chain ≠ key

variable {today : Int}

theorem payloadOf_pools {f : FamilySeed} :
    (payloadOf today f).pools = f.members.map fun m =>
      memberOf m (align today m.series) (sharesOf (f.members.map fun m => align today m.series) (align today m.series)) := by
  unfold payloadOf pairShares
  dsimp only
  rw [List.map_map, List.zip_map', ← List.map_prod_left_eq_zip, List.map_map]
  rfl

theorem payloadOf_identities {f : FamilySeed} : (payloadOf today f).identities = f.members.map (·.identity) := by
  unfold PairVolumePayload.identities
  rw [payloadOf_pools, List.map_map]
  rfl

theorem keptFamilies_values {f : FamilySeed} (kept : f ∈ keptFamilies chain input store) : f ∈ (families chain input store).values := by
  have sorted := List.mem_of_mem_take kept
  exact (List.mem_filter.mp ((List.mergeSort_perm _ _).mem_iff.mp sorted)).1

theorem mem_pairs {payload : PairVolumePayload} (member : payload ∈ (buildPairVolumeSnapshot chain input store).pairs.values) :
    ∃ f ∈ keptFamilies chain input store, payloadOf (dayStartSec input.nowTs) f = payload := by
  rcases InsertionMap.mem_values_foldl_set member with none | shown
  · cases none
  · exact shown

theorem kept_members {f : FamilySeed} (kept : f ∈ keptFamilies chain input store) :
    f.members = (listing chain input store).of f.pairKey :=
  (families_grouped.mem_values (keptFamilies_values kept)).2

theorem listing_key {first second : PairKey × MemberSeed} (left : first ∈ listing chain input store)
    (right : second ∈ listing chain input store) (same : first.2.identity = second.2.identity) : first = second :=
  List.inj_on_of_nodup_map listing_apart left right same

theorem kept_identity {f : FamilySeed} (kept : f ∈ keptFamilies chain input store) :
    identity ∈ f.members.map (·.identity) ↔ ∃ seed, (f.pairKey, seed) ∈ listing chain input store ∧ seed.identity = identity := by
  rw [kept_members kept]
  constructor
  · intro inside
    obtain ⟨seed, held, own⟩ := List.mem_map.mp inside
    exact ⟨seed, Listing.mem_of.mp held, own⟩
  · rintro ⟨seed, listed, own⟩
    exact List.mem_map.mpr ⟨seed, Listing.mem_of.mpr listed, own⟩

theorem kept_identity_key {f g : FamilySeed} (kept : f ∈ keptFamilies chain input store) (kept' : g ∈ keptFamilies chain input store)
    (inside : identity ∈ f.members.map (·.identity)) (inside' : identity ∈ g.members.map (·.identity)) :
    f.pairKey = g.pairKey := by
  obtain ⟨seed, listed, own⟩ := (kept_identity kept).mp inside
  obtain ⟨seed', listed', own'⟩ := (kept_identity kept').mp inside'
  exact congrArg Prod.fst (listing_key listed listed' (own.trans own'.symm))

theorem mem_listing :
    (∃ seed, (key, seed) ∈ listing chain input store ∧ seed.identity = identity) ↔
      (∃ address, Seeded input key address ∧ identity = .address address) ∨
      (∃ row, Qualifying input store row ∧ pairKeyOf row.token0 row.token1 = key ∧ identity = .address row.address) ∨
      SeedRanked input key ∧ ∃ row ∈ store.v4_pools.rows, row.wrapped ∧ row.pairKey chain = key ∧ identity = .poolId row.pool_id := by
  unfold listing
  constructor
  · rintro ⟨seed, listed, rfl⟩
    rcases List.mem_append.mp listed with earlier | snapshot
    · rcases List.mem_append.mp earlier with seeded | v4
      · obtain ⟨p, placed, same⟩ := List.mem_map.mp seeded
        obtain ⟨pair, rfl⟩ := Prod.ext_iff.mp same
        obtain ⟨address, own⟩ := seedPlacements_address placed
        exact .inl ⟨address, seeded_iff.mpr ⟨p, placed, pair, own⟩, own⟩
      · obtain ⟨row, found, same⟩ := List.mem_map.mp v4
        obtain ⟨rfl, rfl⟩ := Prod.ext_iff.mp same
        obtain ⟨stored, wrapped, ranked⟩ := (mem_foundRows chain).mp found
        exact .inr (.inr ⟨ranked, row, stored, wrapped, rfl, rfl⟩)
    · obtain ⟨row, qualifying, same⟩ := mem_snapshotListing.mp snapshot
      obtain ⟨pair, rfl⟩ := Prod.ext_iff.mp same
      exact .inr (.inl ⟨row, qualifying, pair, rfl⟩)
  · rintro (⟨address, seeded, rfl⟩ | ⟨row, qualifying, rfl, rfl⟩ | ⟨ranked, row, stored, wrapped, rfl, rfl⟩)
    · obtain ⟨p, placed, rfl, own⟩ := seeded_iff.mp seeded
      exact ⟨p.seed, List.mem_append_left _ (List.mem_append_left _ (List.mem_map_of_mem placed)), own⟩
    · exact ⟨_, List.mem_append_right _ (mem_snapshotListing.mpr ⟨row, qualifying, rfl⟩), rfl⟩
    · have found : row ∈ foundRows input store := (mem_foundRows chain).mpr ⟨stored, wrapped, ranked⟩
      exact ⟨v4Seed input store row, List.mem_append_left _ (List.mem_append_right _ (List.mem_map.mpr ⟨row, found, rfl⟩)), rfl⟩

theorem kept_v4 {f : FamilySeed} (kept : f ∈ keptFamilies chain input store) {m : MemberSeed} (held : m ∈ f.members)
    (stored : row ∈ store.v4_pools.rows) (own : m.identity = .poolId row.pool_id) : row.wrapped ∧ m = v4Seed input store row := by
  rw [kept_members kept] at held
  have listed := Listing.mem_of.mp held
  have inside := mem_listing.mp ⟨m, listed, own⟩
  rcases inside with ⟨_, _, none⟩ | ⟨_, _, _, none⟩ | ⟨ranked, other, stored', wrapped, pair, same⟩
  · cases none
  · cases none
  · have eq := Table.eq_of_key stored stored' (Identity.poolId.inj same)
    subst eq
    have found : row ∈ foundRows input store := (mem_foundRows chain).mpr ⟨stored, wrapped, pair ▸ ranked⟩
    have listed' : (row.pairKey chain, v4Seed input store row) ∈ listing chain input store :=
      List.mem_append_left _ (List.mem_append_right _ (List.mem_map.mpr ⟨row, found, rfl⟩))
    exact ⟨wrapped, congrArg Prod.snd (listing_key listed listed' own)⟩

theorem payloadOf_volumes {f : FamilySeed} :
    ((payloadOf today f).pools.map (·.volumeAt i)).sum = (reported (f.members.map fun m => align today m.series) i).sum := by
  rw [payloadOf_pools, reported_sum, List.map_map, List.map_map]
  rfl

theorem payloadOf_shares {f : FamilySeed}
    (measured : ((payloadOf today f).pools.map (·.volumeAt i)).sum ≠ 0) : ((payloadOf today f).pools.map (·.shareAt i)).sum = 1 := by
  rw [payloadOf_volumes] at measured
  rw [← sharesOf_sum measured, payloadOf_pools, List.map_map, List.map_map]
  rfl

theorem payloadOf_reporting {f : FamilySeed} {m : PairVolumeMember} (member : m ∈ (payloadOf today f).pools) :
    (m.share.getD i none).isSome ↔ 0 < m.volumeAt i := by
  rw [payloadOf_pools] at member
  obtain ⟨seed, held, rfl⟩ := List.mem_map.mp member
  change ((sharesOf _ (align today seed.series)).getD i none).isSome ↔ 0 < ((align today seed.series).getD i none).getD 0
  rw [sharesOf_at (List.mem_map_of_mem held), Option.isSome_map]
  cases (align today seed.series).getD i none with
  | none => simp [finitePos]
  | some vol => by_cases positive : 0 < vol <;> simp [finitePos, Option.filter_some, positive]

section

variable {f : FamilySeed} (kept : f ∈ keptFamilies chain input store)
include kept

theorem exact_members :
    identity ∈ (payloadOf today f).identities ↔
      (∃ address, Seeded input f.pairKey address ∧ identity = .address address) ∨
      (∃ row, Qualifying input store row ∧ pairKeyOf row.token0 row.token1 = f.pairKey ∧ identity = .address row.address) ∨
      SeedRanked input f.pairKey ∧
        ∃ row ∈ store.v4_pools.rows, row.wrapped ∧ row.pairKey chain = f.pairKey ∧ identity = .poolId row.pool_id := by
  rw [payloadOf_identities, kept_identity kept, mem_listing]

theorem Attributed.listed
    (attributed : Attributed chain input store f.pairKey)
    (ranked : ∃ other ∈ (payloadOf today f).identities, input.rankedIdentities other)
    (stored : row ∈ store.v4_pools.rows) (pair : row.pairKey chain = f.pairKey) : SeedRanked input f.pairKey ∧ row.wrapped := by
  by_cases seeded : SeedRanked input f.pairKey
  · exact ⟨seeded, attributed.seeded seeded row stored pair⟩
  · obtain ⟨other, inside, ranked⟩ := ranked
    rcases (exact_members kept).mp inside with ⟨address, own, rfl⟩ | ⟨top, qualifying, own, rfl⟩ | ⟨other, _⟩
    · exact absurd ⟨address, own, ranked⟩ seeded
    · exact absurd pair (attributed.snapshot seeded ⟨top, qualifying, own, ranked⟩ row stored)
    · exact absurd other seeded

theorem Attributed.exact (attributed : Attributed chain input store f.pairKey) :
    Exact chain input store (payloadOf (dayStartSec input.nowTs) f) := by
  constructor
  case members =>
    intro identity
    rw [exact_members kept]
    refine or_congr_right (or_congr_right ?_)
    constructor
    · rintro ⟨ranked, row, stored, wrapped, pair, rfl⟩
      obtain ⟨address, seeded, top⟩ := ranked
      exact ⟨⟨.address address, (exact_members kept).mpr (.inl ⟨address, seeded, rfl⟩), top⟩, row, stored, pair, rfl⟩
    · rintro ⟨ranked, row, stored, pair, rfl⟩
      obtain ⟨seeded, wrapped⟩ := attributed.listed kept ranked stored pair
      exact ⟨seeded, row, stored, wrapped, pair, rfl⟩
  case once =>
    rw [payloadOf_identities, kept_members kept]
    unfold Listing.of
    rw [List.map_map]
    exact listing_apart.sublist (List.filter_sublist.map _)
  case alone =>
    intro other shown different identity inside inside'
    obtain ⟨g, kept', rfl⟩ := mem_pairs shown
    rw [payloadOf_identities] at inside inside'
    exact different (kept_identity_key kept' kept inside' inside)
  case routed =>
    intro identity inside
    rw [payloadOf_identities] at inside
    refine InsertionMap.get?_foldl_set ?_ (.inl ?_)
    · intro item member same
      obtain ⟨g, kept', held⟩ := List.mem_flatMap.mp member
      obtain ⟨m, inside', rfl⟩ := List.mem_map.mp held
      exact kept_identity_key kept' kept (List.mem_map.mpr ⟨m, inside', same⟩) inside
    · obtain ⟨m, held, own⟩ := List.mem_map.mp inside
      exact ⟨(m.identity, f.pairKey), List.mem_flatMap.mpr ⟨f, kept, List.mem_map_of_mem held⟩, own⟩
  case totals =>
    intro i
    rw [payloadOf_volumes]
    exact pairTotals_at _ i
  case shares => exact fun i measured => payloadOf_shares measured
  case reporting => exact fun i m member => payloadOf_reporting member
  case native =>
    intro m member row stored own
    rw [payloadOf_pools] at member
    obtain ⟨seed, held, rfl⟩ := List.mem_map.mp member
    obtain ⟨wrapped, rfl⟩ := kept_v4 kept held stored own
    change align _ (v4Series store store.priceOf input.nowTs row) = align _ (wrappedSeries chain input store row)
    unfold wrappedSeries v4Series
    dsimp only
    rw [canonicalCurrency_wrapped wrapped.1, canonicalCurrency_wrapped wrapped.2]

theorem Exact.found
    (whole : Exact chain input store (payloadOf today f)) {other : Identity}
    (inside : other ∈ (payloadOf today f).identities) (ranked : input.rankedIdentities other)
    (stored : row ∈ store.v4_pools.rows) (pair : row.pairKey chain = f.pairKey) : SeedRanked input f.pairKey ∧ row.wrapped := by
  have listed := (whole.members (.poolId row.pool_id)).mpr (.inr (.inr ⟨⟨other, inside, ranked⟩, row, stored, pair, rfl⟩))
  rcases (exact_members kept).mp listed with ⟨_, _, none⟩ | ⟨_, _, _, none⟩ | ⟨seeded, found, stored', wrapped, _, same⟩
  · cases none
  · cases none
  · have eq := Table.eq_of_key stored stored' (Identity.poolId.inj same)
    subst eq
    exact ⟨seeded, wrapped⟩

theorem Exact.attributed
    (whole : Exact chain input store (payloadOf today f)) : Attributed chain input store f.pairKey := by
  constructor
  case seeded =>
    rintro ⟨address, seeded, ranked⟩ row stored pair
    exact (whole.found kept ((exact_members kept).mpr (.inl ⟨address, seeded, rfl⟩)) ranked stored pair).2
  case snapshot =>
    rintro unseeded ⟨top, qualifying, own, ranked⟩ row stored pair
    exact unseeded (whole.found kept ((exact_members kept).mpr (.inr (.inl ⟨top, qualifying, own, rfl⟩))) ranked stored pair).1

end

def Shown (chain : Chain) (input : Input) (store : Store) : Type :=
  { payload : PairVolumePayload // payload ∈ (buildPairVolumeSnapshot chain input store).pairs.values }

theorem buildPairVolumeSnapshot_exact_iff (chain : Chain) (input : Input) (store : Store) (shown : Shown chain input store) :
    Exact chain input store shown.1 ↔ Attributed chain input store shown.1.pairKey := by
  obtain ⟨payload, member⟩ := shown
  obtain ⟨f, kept, rfl⟩ := mem_pairs member
  exact ⟨fun whole => whole.attributed kept, fun attributed => attributed.exact kept⟩

theorem shown_of_kept {f : FamilySeed} (kept : f ∈ keptFamilies chain input store) :
    payloadOf (dayStartSec input.nowTs) f ∈ (buildPairVolumeSnapshot chain input store).pairs.values := by
  have read : (buildPairVolumeSnapshot chain input store).pairs.get? f.pairKey = some (payloadOf (dayStartSec input.nowTs) f) := by
    change ((keptFamilies chain input store).foldl _ InsertionMap.empty).get? f.pairKey = _
    rw [← List.foldl_map (f := fun g : FamilySeed => (g.pairKey, payloadOf (dayStartSec input.nowTs) g))
      (g := fun pairs item => InsertionMap.set pairs item.1 item.2)]
    refine InsertionMap.get?_foldl_set (fun item member own => ?_) (.inl ⟨_, List.mem_map_of_mem kept, rfl⟩)
    obtain ⟨g, kept', rfl⟩ := List.mem_map.mp member
    have found := (families_grouped.mem_values (keptFamilies_values kept)).1
    have found' := (families_grouped.mem_values (keptFamilies_values kept')).1
    rw [show g.pairKey = f.pairKey from own, found] at found'
    cases found'
    rfl
  exact List.mem_map.mpr ⟨_, InsertionMap.mem_entries.mpr read, rfl⟩

theorem kept_of_few {f : FamilySeed} (few : (families chain input store).values.length ≤ MAX_FAMILIES)
    (member : f ∈ (families chain input store).values) (qualifies : f.members.any (·.qualifies input)) :
    f ∈ keptFamilies chain input store := by
  unfold keptFamilies
  rw [List.take_of_length_le]
  · exact (List.mergeSort_perm _ _).mem_iff.mpr (List.mem_filter.mpr ⟨member, qualifies⟩)
  · rw [List.length_mergeSort]
    exact (List.length_filter_le _ _).trans few

theorem families_without_pools (none : store.pools.rows = []) : families chain input store = v4Families chain input store := by
  change snapshotLeg input store (v4Families chain input store) = _
  unfold snapshotLeg topPools
  rw [none, List.filter_nil, List.mergeSort_nil, List.take_nil]
  rfl

def missedChain : Chain := ⟨5⟩

def missedInput : Input where
  subgraphPools := [⟨100, 60, none, ⟨5, "WBNB"⟩, ⟨9, "UP"⟩, []⟩]
  onchain _ := none
  univ3Candidates := []
  univ3Candles _ := none
  rankedIdentities identity := identity = .address 100
  nowTs := 1700000000
  apart := by decide
  subgraphTokens := by decide
  candidateTokens := by decide

def missedStore : Store where
  tokens _ := none
  v4_pools := ⟨[⟨7, zeroAddress, 9, none, 60⟩], by decide⟩
  v4_pool_days _ := []
  v4_market_stats _ := none
  pools := .empty
  pool_state _ := none
  pool_stats _ := none
  pool_market_snapshots _ := []
  sorted := by decide

/-- The family of the wrapped token lacks the native pool. -/
theorem native_pool_missed : ¬ ∀ shown : Shown missedChain missedInput missedStore, Exact missedChain missedInput missedStore shown.1 := by
  intro all
  have empty : families missedChain missedInput missedStore = v4Families missedChain missedInput missedStore :=
    families_without_pools rfl
  have ranked : SeedRanked missedInput (5, 9) := ⟨100, .up33 _ List.mem_cons_self rfl rfl, rfl⟩
  obtain ⟨p, placed, pair, top⟩ := seedRanked_iff.mp ranked
  have listed : ((5, 9), p.seed) ∈ listing missedChain missedInput missedStore :=
    List.mem_append_left _ (List.mem_append_left _ (List.mem_map.mpr ⟨p, placed, congrArg (fun key => (key, p.seed)) pair⟩))
  obtain ⟨f, found, own, members⟩ := families_grouped.present listed
  have few : (families missedChain missedInput missedStore).values.length ≤ MAX_FAMILIES := by
    rw [empty]
    decide
  have kept : f ∈ keptFamilies missedChain missedInput missedStore := by
    refine kept_of_few few (List.mem_map.mpr ⟨_, InsertionMap.mem_entries.mpr found, rfl⟩) (List.any_eq_true.mpr ⟨p.seed, ?_, ?_⟩)
    · rw [members]
      exact Listing.mem_of.mpr listed
    · exact Bool.or_eq_true_iff.mpr (.inl top)
  have whole := (all ⟨_, shown_of_kept kept⟩).attributed kept
  rw [own] at whole
  exact (whole.seeded ranked _ List.mem_cons_self rfl).1 rfl

end LpTerminal.Volume
