import LpTerminal.Catalog.Rows
import LpTerminal.Lib.Leading
import Mathlib.Algebra.BigOperators.Group.Finset.Basic
import Mathlib.Algebra.Order.Field.Rat
import Mathlib.Data.Finset.Powerset

/-!
The ranked connector projection: its rebuild from the priced pools, the two-hop candidates read from it, and what they list and
leave out after a rebuild. Tvl is exact.
-/

namespace LpTerminal.Catalog.ConnectorRank

def SOLVER_CONNECTOR_RANK_K : ℕ := 256

/-- The bit of a protocol; `p.proto IN (…)` keeps the one that has none out. -/
def protoBit : PoolProto → ℕ
  | .univ2 => 1 <<< 0
  | .univ3 => 1 <<< 1
  | .pancakev2 => 1 <<< 2
  | .pancakev3 => 1 <<< 3
  | .up33cl => 0

/-- The columns of `pool_state` that the ranking reads. -/
structure PoolState where
  address : Address
  tvlUsd : Option ℚ
  tvlApprox : Bool

/-- A row of `solver_connector_rank`. -/
structure RankRow where
  token : Address
  neighbor : Address
  tvlUsd : ℚ
  protoMask : ℕ
  approx : Bool
deriving DecidableEq

structure RankMeta where
  builtAt : ℤ
  v23Seq : ℕ
  v23Generation : ℕ
  rows : ℕ
  tokens : ℕ
  k : ℕ

structure Database where
  pools : List Pool
  poolState : List PoolState
  v23Seq : ℕ
  v23Generation : ℕ
  /-- `solver_connector_rank`, whose key is `(token, neighbor)`. -/
  rank : List RankRow
  stamps : Option RankMeta

/-- A row of the join that `edge` groups. -/
structure Priced where
  a : Address
  b : Address
  tvl : ℚ
  approx : Bool
  proto : PoolProto

def priced (s : PoolState) (p : Pool) : Option Priced :=
  match s.tvlUsd with
  | none => none
  | some tvl =>
    if p.address = s.address ∧ 0 < tvl ∧ p.token0 ≠ p.token1 ∧ p.proto.isPublic then
      some
        { a := if p.token0 < p.token1 then p.token0 else p.token1
          b := if p.token0 < p.token1 then p.token1 else p.token0
          tvl, approx := s.tvlApprox, proto := p.proto }
    else none

def pricedRows (db : Database) : List Priced := db.poolState.flatMap fun s => db.pools.filterMap (priced s)

structure Edge where
  a : Address
  b : Address
  tvl : ℚ
  approx : Bool
  mask : ℕ

/-- The row that a lone `MAX(s.tvl_usd)` takes its bare columns from. -/
def best (first : Priced) (rest : List Priced) : Priced :=
  rest.foldl (fun most row => if most.tvl < row.tvl then row else most) first

def inGroup (key : Address × Address) (row : Priced) : Bool := row.a = key.1 && row.b = key.2

/-- `SUM(DISTINCT …)` of the protocol bits. -/
def bitSum (protos : List PoolProto) : ℕ := (protos.map protoBit).dedup.sum

def group (rows : List Priced) (key : Address × Address) : Option Edge :=
  match rows.filter (inGroup key) with
  | [] => none
  | first :: rest =>
    let top := best first rest
    some { a := key.1, b := key.2, tvl := top.tvl, approx := top.approx, mask := bitSum ((first :: rest).map Priced.proto) }

/-- `GROUP BY a, b`. -/
def edges (rows : List Priced) : List Edge := (rows.map fun row => (row.a, row.b)).dedup.filterMap (group rows)

def Edge.forth (e : Edge) : RankRow := { token := e.a, neighbor := e.b, tvlUsd := e.tvl, protoMask := e.mask, approx := e.approx }

def Edge.back (e : Edge) : RankRow := { token := e.b, neighbor := e.a, tvlUsd := e.tvl, protoMask := e.mask, approx := e.approx }

def directed (edges : List Edge) : List RankRow := edges.map Edge.forth ++ edges.map Edge.back

/-- `ORDER BY tvl DESC, neighbor ASC`. -/
def RankRow.before (row other : RankRow) : Bool :=
  other.tvlUsd < row.tvlUsd || (row.tvlUsd = other.tvlUsd && row.neighbor < other.neighbor)

/-- `ROW_NUMBER()` in the partition of the token: the rows before it, and itself. -/
def rowNumber (rows : List RankRow) (row : RankRow) : ℕ :=
  (rows.filter fun other => other.token = row.token && other.before row).length + 1

def keyOrder (row other : RankRow) : Bool :=
  row.token < other.token || (row.token = other.token && row.neighbor ≤ other.neighbor)

/-- `RANK_STAGE_BUILD`. -/
def rankStage (db : Database) : List RankRow :=
  let rows := directed (edges (pricedRows db))
  (rows.filter fun row => rowNumber rows row ≤ SOLVER_CONNECTOR_RANK_K).mergeSort keyOrder

def stagedTokens (stage : List RankRow) : List Address := (stage.map RankRow.token).dedup

def publishSolverConnectorRank (now : ℤ) (stage : List RankRow) (db : Database) : Database :=
  { db with
    rank := stage
    stamps := some
      { builtAt := now, v23Seq := db.v23Seq, v23Generation := db.v23Generation, rows := stage.length
        tokens := (stagedTokens stage).length, k := SOLVER_CONNECTOR_RANK_K } }

def rebuildSolverConnectorRank (now : ℤ) (db : Database) : Except String Database :=
  let stage := rankStage db
  if (stagedTokens stage).any fun token => SOLVER_CONNECTOR_RANK_K < (stage.filter (·.token = token)).length then
    .error "solver connector ranking exceeded its per-token cap"
  else .ok (publishSolverConnectorRank now stage db)

structure Candidate where
  token : Address
  bottleneckUsd : ℚ
  aTvlUsd : ℚ
  bTvlUsd : ℚ
  aProtocolMask : ℕ
  bProtocolMask : ℕ
  approx : Bool
deriving DecidableEq

def probe (rank : List RankRow) (token neighbor : Address) : Option RankRow :=
  rank.find? fun row => row.token = token && row.neighbor = neighbor

def candidate (rank : List RankRow) (tokenA tokenB : Address) (protocolMask : ℕ) (a : RankRow) : Option Candidate :=
  if a.token = tokenA then
    match probe rank tokenB a.neighbor with
    | none => none
    | some b =>
      if a.neighbor ≠ b.token ∧ a.protoMask &&& protocolMask ≠ 0 ∧ b.protoMask &&& protocolMask ≠ 0 then
        some
          { token := a.neighbor, bottleneckUsd := min a.tvlUsd b.tvlUsd, aTvlUsd := a.tvlUsd, bTvlUsd := b.tvlUsd
            aProtocolMask := a.protoMask &&& protocolMask, bProtocolMask := b.protoMask &&& protocolMask
            approx := a.approx || b.approx }
      else none
  else none

/-- `ORDER BY bottleneck DESC, a.neighbor ASC`. -/
def candidateOrder (c other : Candidate) : Bool :=
  other.bottleneckUsd < c.bottleneckUsd || (c.bottleneckUsd = other.bottleneckUsd && c.token ≤ other.token)

/-- `LIMIT ?`, where a negative number is none. -/
def limited (limit : ℤ) (rows : List Candidate) : List Candidate := if limit < 0 then rows else rows.take limit.toNat

def solverConnectorCandidates (db : Database) (tokenA tokenB : Address) (protocolMask : ℕ) (limit : ℤ) : List Candidate :=
  limited limit ((db.rank.filterMap (candidate db.rank tokenA tokenB protocolMask)).mergeSort candidateOrder)

structure Side where
  ranked : ℕ
  truncated : Bool
  floorUsd : Option ℚ

def solverConnectorSide (db : Database) (token : Address) : Side :=
  let rows := db.rank.filter (·.token = token)
  { ranked := rows.length, truncated := rows.length ≥ SOLVER_CONNECTOR_RANK_K, floorUsd := (rows.map RankRow.tvlUsd).min? }

theorem and_low {n : ℕ} (small : n < 16) (m : ℕ) : n &&& m = n &&& (m % 16) := by
  have own : n &&& 15 = n := by
    rw [show 15 = 2 ^ 4 - 1 from rfl, Nat.and_two_pow_sub_one_eq_mod, Nat.mod_eq_of_lt small]
  have low : 15 &&& m = m % 16 := by
    rw [Nat.and_comm, show 15 = 2 ^ 4 - 1 from rfl, Nat.and_two_pow_sub_one_eq_mod]
  conv_lhs => rw [← own, Nat.and_assoc, low]

theorem bits_and : ∀ bits ∈ ({1, 2, 4, 8} : Finset ℕ).powerset, ∑ b ∈ bits, b < 16 ∧
    ∀ r < 16, (∑ b ∈ bits, b) &&& r ≠ 0 ↔ ∃ b ∈ bits, b &&& r ≠ 0 := by
  decide

theorem protoBit_mem {proto : PoolProto} (listed : proto.isPublic) : protoBit proto ∈ ({1, 2, 4, 8} : Finset ℕ) := by
  cases proto <;> simp_all [protoBit, PoolProto.isPublic]

theorem bitSum_and {protos : List PoolProto} (listed : ∀ proto ∈ protos, proto.isPublic) (m : ℕ) :
    bitSum protos &&& m ≠ 0 ↔ ∃ proto ∈ protos, protoBit proto &&& m ≠ 0 := by
  have part : (protos.map protoBit).toFinset ∈ ({1, 2, 4, 8} : Finset ℕ).powerset := by
    rw [Finset.mem_powerset]
    intro b member
    obtain ⟨proto, inside, rfl⟩ := List.mem_map.mp (List.mem_toFinset.mp member)
    exact protoBit_mem (listed proto inside)
  have total : bitSum protos = ∑ b ∈ (protos.map protoBit).toFinset, b := by
    have same : (protos.map protoBit).toFinset = (protos.map protoBit).dedup.toFinset := by ext b; simp
    rw [bitSum, same, List.sum_toFinset _ (List.nodup_dedup _), List.map_id']
  obtain ⟨small, split⟩ := bits_and _ part
  rw [total, and_low small, split _ (Nat.mod_lt m (by omega))]
  constructor
  · rintro ⟨b, member, common⟩
    obtain ⟨proto, inside, rfl⟩ := List.mem_map.mp (List.mem_toFinset.mp member)
    have bound := protoBit_mem (listed proto inside)
    refine ⟨proto, inside, ?_⟩
    rwa [and_low (by simp at bound; omega)]
  · rintro ⟨proto, inside, common⟩
    have bound := protoBit_mem (listed proto inside)
    refine ⟨protoBit proto, List.mem_toFinset.mpr (List.mem_map_of_mem inside), ?_⟩
    rwa [← and_low (by simp at bound; omega)]

def PoolBetween (db : Database) (x c : Address) (tvl : ℚ) (proto : PoolProto) : Prop :=
  ∃ s ∈ db.poolState, ∃ p ∈ db.pools, p.address = s.address ∧ s.tvlUsd = some tvl ∧ 0 < tvl ∧ p.proto = proto ∧ proto.isPublic ∧
    x ≠ c ∧ (p.token0 = x ∧ p.token1 = c ∨ p.token0 = c ∧ p.token1 = x)

variable {db : Database} {x c : Address} {tvl : ℚ} {proto : PoolProto}

theorem PoolBetween.symm (pool : PoolBetween db x c tvl proto) : PoolBetween db c x tvl proto := by
  obtain ⟨s, state, p, inside, same, value, positive, kind, listed, apart, tokens⟩ := pool
  exact ⟨s, state, p, inside, same, value, positive, kind, listed, apart.symm, tokens.symm⟩

variable {row : Priced}

theorem priced_eq_some {s : PoolState} {p : Pool} : priced s p = some row ↔
    p.address = s.address ∧ s.tvlUsd = some row.tvl ∧ 0 < row.tvl ∧ row.proto = p.proto ∧ p.proto.isPublic ∧
      row.approx = s.tvlApprox ∧ row.a < row.b ∧ (p.token0 = row.a ∧ p.token1 = row.b ∨ p.token0 = row.b ∧ p.token1 = row.a) := by
  unfold priced
  obtain ⟨a, b, tvl, approx, proto⟩ := row
  cases value : s.tvlUsd with
  | none => simp
  | some tvl' =>
    dsimp only
    by_cases kept : p.address = s.address ∧ 0 < tvl' ∧ p.token0 ≠ p.token1 ∧ p.proto.isPublic
    · obtain ⟨same, positive, apart, listed⟩ := kept
      rw [if_pos ⟨same, positive, apart, listed⟩]
      rcases lt_or_gt_of_ne apart with less | more
      · simp only [if_pos less, Option.some_inj, Priced.mk.injEq]
        constructor
        · rintro ⟨rfl, rfl, rfl, rfl, rfl⟩
          exact ⟨same, rfl, positive, rfl, listed, rfl, less, .inl ⟨rfl, rfl⟩⟩
        · rintro ⟨-, rfl, -, rfl, -, rfl, order, ⟨rfl, rfl⟩ | ⟨rfl, rfl⟩⟩
          · exact ⟨rfl, rfl, rfl, rfl, rfl⟩
          · exact absurd less order.not_gt
      · simp only [if_neg more.not_gt, Option.some_inj, Priced.mk.injEq]
        constructor
        · rintro ⟨rfl, rfl, rfl, rfl, rfl⟩
          exact ⟨same, rfl, positive, rfl, listed, rfl, more, .inr ⟨rfl, rfl⟩⟩
        · rintro ⟨-, rfl, -, rfl, -, rfl, order, ⟨rfl, rfl⟩ | ⟨rfl, rfl⟩⟩
          · exact absurd more order.not_gt
          · exact ⟨rfl, rfl, rfl, rfl, rfl⟩
    · rw [if_neg kept]
      constructor
      · intro absent
        cases absent
      · rintro ⟨same, value', positive, -, listed, -, order, tokens⟩
        obtain rfl := Option.some_inj.mp value'
        refine absurd ⟨same, positive, ?_, listed⟩ kept
        rcases tokens with ⟨first, second⟩ | ⟨first, second⟩
        · rw [first, second]
          exact order.ne
        · rw [first, second]
          exact order.ne'

theorem mem_pricedRows : row ∈ pricedRows db ↔ ∃ s ∈ db.poolState, ∃ p ∈ db.pools, priced s p = some row := by
  simp [pricedRows, List.mem_flatMap, List.mem_filterMap]

theorem pricedRows_lt (inside : row ∈ pricedRows db) : row.a < row.b := by
  obtain ⟨s, -, p, -, made⟩ := mem_pricedRows.mp inside
  exact (priced_eq_some.mp made).2.2.2.2.2.2.1

theorem pricedRows_public (inside : row ∈ pricedRows db) : row.proto.isPublic := by
  obtain ⟨s, -, p, -, made⟩ := mem_pricedRows.mp inside
  obtain ⟨-, -, -, kind, listed, -⟩ := priced_eq_some.mp made
  exact kind ▸ listed

theorem exists_pricedRow (less : x < c) :
    (∃ row ∈ pricedRows db, row.a = x ∧ row.b = c ∧ row.tvl = tvl ∧ row.proto = proto) ↔ PoolBetween db x c tvl proto := by
  constructor
  · rintro ⟨row, inside, rfl, rfl, rfl, rfl⟩
    obtain ⟨s, state, p, pool, made⟩ := mem_pricedRows.mp inside
    obtain ⟨same, value, positive, kind, listed, -, -, tokens⟩ := priced_eq_some.mp made
    exact ⟨s, state, p, pool, same, value, positive, kind.symm, kind ▸ listed, less.ne, tokens⟩
  · rintro ⟨s, state, p, pool, same, value, positive, rfl, listed, -, tokens⟩
    refine ⟨⟨x, c, tvl, s.tvlApprox, p.proto⟩, ?_, rfl, rfl, rfl, rfl⟩
    exact mem_pricedRows.mpr ⟨s, state, p, pool, priced_eq_some.mpr ⟨same, value, positive, rfl, listed, rfl, less, tokens⟩⟩

theorem best_spec (first : Priced) (rest : List Priced) :
    best first rest ∈ first :: rest ∧ ∀ row ∈ first :: rest, row.tvl ≤ (best first rest).tvl := by
  unfold best
  induction rest generalizing first with
  | nil => simp
  | cons row rest ih =>
    rw [List.foldl_cons]
    obtain ⟨inside, most⟩ := ih (if first.tvl < row.tvl then row else first)
    refine ⟨?_, ?_⟩
    · rcases List.mem_cons.mp inside with same | later
      · rw [same]
        split <;> simp
      · simp [later]
    · have head := most _ List.mem_cons_self
      rintro other (_ | ⟨_, _ | ⟨_, later⟩⟩)
      · refine le_trans ?_ head
        split
        · rename_i less
          exact less.le
        · exact le_rfl
      · refine le_trans ?_ head
        split
        · exact le_rfl
        · rename_i more
          exact not_lt.mp more
      · exact most other (List.mem_cons_of_mem _ later)

variable {rows : List Priced}

theorem group_spec {key : Address × Address} {e : Edge} (made : group rows key = some e) :
    (e.a, e.b) = key ∧ (∃ row ∈ rows, inGroup key row ∧ row.tvl = e.tvl) ∧ (∀ row ∈ rows, inGroup key row → row.tvl ≤ e.tvl) ∧
      e.mask = bitSum ((rows.filter (inGroup key)).map Priced.proto) := by
  unfold group at made
  split at made
  · cases made
  · rename_i first rest found
    obtain rfl := Option.some_inj.mp made
    obtain ⟨inside, most⟩ := best_spec first rest
    rw [← found] at inside most ⊢
    obtain ⟨row, belongs⟩ := List.mem_filter.mp inside
    exact ⟨rfl, ⟨_, row, belongs, rfl⟩, fun other member own => most other (List.mem_filter.mpr ⟨member, own⟩), rfl⟩

theorem group_isSome (inside : row ∈ rows) : ∃ e, group rows (row.a, row.b) = some e := by
  have member : row ∈ rows.filter (inGroup (row.a, row.b)) := List.mem_filter.mpr ⟨inside, by simp [inGroup]⟩
  unfold group
  split
  · rename_i empty
    rw [empty] at member
    cases member
  · exact ⟨_, rfl⟩

theorem mem_edges {e : Edge} (inside : e ∈ edges rows) : group rows (e.a, e.b) = some e := by
  obtain ⟨key, -, made⟩ := List.mem_filterMap.mp inside
  rwa [(group_spec made).1]

theorem edges_nodup (rows : List Priced) : ((edges rows).map fun e => (e.a, e.b)).Nodup := by
  refine List.pairwise_map.mpr ?_
  rw [edges, List.pairwise_filterMap]
  refine (List.nodup_dedup _).imp fun {key other} apart e made e' made' same => apart ?_
  rw [← (group_spec made).1, ← (group_spec made').1, same]

/-- An edge has the best tvl of its pools and the protocols of all of them. -/
structure IsEdge (db : Database) (x c : Address) (tvl : ℚ) (mask : ℕ) : Prop where
  greatest : IsGreatest {t | ∃ proto, PoolBetween db x c t proto} tvl
  mask : ∀ m, mask &&& m ≠ 0 ↔ ∃ t proto, PoolBetween db x c t proto ∧ protoBit proto &&& m ≠ 0

theorem PoolBetween.comm : PoolBetween db x c tvl proto ↔ PoolBetween db c x tvl proto := ⟨PoolBetween.symm, PoolBetween.symm⟩

theorem IsEdge.symm {mask : ℕ} (edge : IsEdge db x c tvl mask) : IsEdge db c x tvl mask := by
  obtain ⟨greatest, masks⟩ := edge
  simp only [PoolBetween.comm (x := x) (c := c)] at greatest masks
  exact ⟨greatest, masks⟩

theorem isEdge_of_mem {e : Edge} (inside : e ∈ edges (pricedRows db)) : e.a < e.b ∧ IsEdge db e.a e.b e.tvl e.mask := by
  obtain ⟨-, ⟨row, member, own, value⟩, most, mask⟩ := group_spec (mem_edges inside)
  have belongs : ∀ {row : Priced}, inGroup (e.a, e.b) row ↔ row.a = e.a ∧ row.b = e.b := by simp [inGroup]
  obtain ⟨first, second⟩ := belongs.mp own
  have less : e.a < e.b := first ▸ second ▸ pricedRows_lt member
  refine ⟨less, ⟨⟨row.proto, (exists_pricedRow less).mp ⟨row, member, first, second, value, rfl⟩⟩, ?_⟩, fun m => ?_⟩
  · rintro t ⟨proto, pool⟩
    obtain ⟨other, there, first', second', rfl, -⟩ := (exists_pricedRow less).mpr pool
    exact most other there (belongs.mpr ⟨first', second'⟩)
  · rw [mask, bitSum_and]
    · constructor
      · rintro ⟨proto, listed, common⟩
        obtain ⟨other, kept, rfl⟩ := List.mem_map.mp listed
        obtain ⟨there, own'⟩ := List.mem_filter.mp kept
        obtain ⟨first', second'⟩ := belongs.mp own'
        exact ⟨other.tvl, other.proto, (exists_pricedRow less).mp ⟨other, there, first', second', rfl, rfl⟩, common⟩
      · rintro ⟨t, proto, pool, common⟩
        obtain ⟨other, there, first', second', -, rfl⟩ := (exists_pricedRow less).mpr pool
        exact ⟨other.proto, List.mem_map_of_mem (List.mem_filter.mpr ⟨there, belongs.mpr ⟨first', second'⟩⟩), common⟩
    · intro proto listed
      obtain ⟨other, kept, rfl⟩ := List.mem_map.mp listed
      exact pricedRows_public (List.mem_of_mem_filter kept)

theorem edge_exists (less : x < c) (pool : PoolBetween db x c tvl proto) : ∃ e ∈ edges (pricedRows db), e.a = x ∧ e.b = c := by
  obtain ⟨row, inside, rfl, rfl, -, -⟩ := (exists_pricedRow less).mpr pool
  obtain ⟨e, made⟩ := group_isSome inside
  have key := (group_spec made).1
  simp only [Prod.mk.injEq] at key
  refine ⟨e, List.mem_filterMap.mpr ⟨(row.a, row.b), ?_, made⟩, key⟩
  exact List.mem_dedup.mpr (List.mem_map_of_mem inside)

def directedRows (db : Database) : List RankRow := directed (edges (pricedRows db))

theorem mem_directedRows {row : RankRow} : row ∈ directedRows db ↔ ∃ e ∈ edges (pricedRows db), row = e.forth ∨ row = e.back := by
  simp only [directedRows, directed, List.mem_append, List.mem_map]
  constructor
  · rintro (⟨e, inside, rfl⟩ | ⟨e, inside, rfl⟩)
    · exact ⟨e, inside, .inl rfl⟩
    · exact ⟨e, inside, .inr rfl⟩
  · rintro ⟨e, inside, rfl | rfl⟩
    · exact .inl ⟨e, inside, rfl⟩
    · exact .inr ⟨e, inside, rfl⟩

theorem isEdge_of_directed {row : RankRow} (inside : row ∈ directedRows db) :
    IsEdge db row.token row.neighbor row.tvlUsd row.protoMask := by
  obtain ⟨e, member, rfl | rfl⟩ := mem_directedRows.mp inside
  · exact (isEdge_of_mem member).2
  · exact (isEdge_of_mem member).2.symm

theorem directed_exists (pool : PoolBetween db x c tvl proto) : ∃ row ∈ directedRows db, row.token = x ∧ row.neighbor = c := by
  have apart : x ≠ c := by
    obtain ⟨_, _, _, _, _, _, _, _, _, apart, _⟩ := pool
    exact apart
  rcases lt_or_gt_of_ne apart with less | more
  · obtain ⟨e, member, rfl, rfl⟩ := edge_exists less pool
    exact ⟨e.forth, mem_directedRows.mpr ⟨e, member, .inl rfl⟩, rfl, rfl⟩
  · obtain ⟨e, member, rfl, rfl⟩ := edge_exists more pool.symm
    exact ⟨e.back, mem_directedRows.mpr ⟨e, member, .inr rfl⟩, rfl, rfl⟩

theorem directed_nodup (db : Database) : ((directedRows db).map fun row => (row.token, row.neighbor)).Nodup := by
  have keys := edges_nodup (pricedRows db)
  rw [directedRows, directed, List.map_append, List.map_map, List.map_map, List.nodup_append]
  refine ⟨keys, ?_, ?_⟩
  · have swapped := keys.map Prod.swap_injective
    rwa [List.map_map] at swapped
  · rintro key forth other back rfl
    obtain ⟨e, member, rfl⟩ := List.mem_map.mp forth
    obtain ⟨e', member', same⟩ := List.mem_map.mp back
    have order := (isEdge_of_mem member).1
    have order' := (isEdge_of_mem member').1
    simp only [Function.comp_apply, Edge.forth, Edge.back, Prod.mk.injEq] at same
    rw [same.1, same.2] at order'
    exact order.not_gt order'

def RankRow.position (row : RankRow) : ℚᵒᵈ ×ₗ Address := toLex (OrderDual.toDual row.tvlUsd, row.neighbor)

theorem before_iff {row other : RankRow} : row.before other ↔ row.position < other.position := by
  simp [RankRow.before, RankRow.position, Prod.Lex.toLex_lt_toLex]

theorem tvl_le_of_position {row other : RankRow} (before : row.position < other.position) : other.tvlUsd ≤ row.tvlUsd := by
  rcases Prod.Lex.toLex_lt_toLex.mp before with less | ⟨same, -⟩
  · exact (OrderDual.toDual_lt_toDual.mp less).le
  · exact (OrderDual.toDual_inj.mp same).ge

section Cut

variable {db : Database} {row other : RankRow}

theorem directed_inj (first : row ∈ directedRows db) (second : other ∈ directedRows db) (token : row.token = other.token)
    (neighbor : row.neighbor = other.neighbor) : row = other :=
  List.inj_on_of_nodup_map (directed_nodup db) first second (Prod.ext token neighbor)

def listOf (db : Database) (token : Address) : List RankRow := (directedRows db).filter (·.token = token)

theorem mem_listOf {token : Address} : row ∈ listOf db token ↔ row ∈ directedRows db ∧ row.token = token := by
  simp [listOf]

theorem position_inj {token : Address} (first : row ∈ listOf db token) (second : other ∈ listOf db token)
    (same : row.position = other.position) : row = other := by
  obtain ⟨inside, rfl⟩ := mem_listOf.mp first
  obtain ⟨inside', own⟩ := mem_listOf.mp second
  simp only [RankRow.position, EmbeddingLike.apply_eq_iff_eq, Prod.mk.injEq] at same
  exact directed_inj inside inside' own.symm same.2

theorem positions_nodup (db : Database) (token : Address) : ((listOf db token).map RankRow.position).Nodup := by
  have nodup : (listOf db token).Nodup := ((directed_nodup db).of_map _).filter _
  exact List.Nodup.map_on (fun _ first _ second same => position_inj first second same) nodup

def places (db : Database) (token : Address) : Finset (ℚᵒᵈ ×ₗ Address) := ((listOf db token).map RankRow.position).toFinset

theorem mem_places {token : Address} (inside : row ∈ listOf db token) : row.position ∈ places db token :=
  List.mem_toFinset.mpr (List.mem_map_of_mem inside)

theorem rowNumber_eq (db : Database) (row : RankRow) :
    rowNumber (directedRows db) row = (Leading.before (places db row.token) row.position).card + 1 := by
  have split : ((directedRows db).filter fun other => other.token = row.token && other.before row) =
      (listOf db row.token).filter (·.before row) := by
    rw [listOf, List.filter_filter]
    exact List.filter_congr fun other _ => Bool.and_comm _ _
  have same : Leading.before (places db row.token) row.position =
      (((listOf db row.token).filter (·.before row)).map RankRow.position).toFinset := by
    ext place
    simp only [Leading.before, places, Finset.mem_filter, List.mem_toFinset, List.mem_map, List.mem_filter, before_iff]
    constructor
    · rintro ⟨⟨other, member, rfl⟩, less⟩
      exact ⟨other, ⟨member, less⟩, rfl⟩
    · rintro ⟨other, ⟨member, less⟩, rfl⟩
      exact ⟨⟨other, member, rfl⟩, less⟩
  have nodup : (((listOf db row.token).filter (·.before row)).map RankRow.position).Nodup :=
    (positions_nodup db row.token).sublist (List.filter_sublist.map _)
  rw [rowNumber, split, same, List.toFinset_card_of_nodup nodup, List.length_map]

def page (db : Database) (token : Address) : List (ℚᵒᵈ ×ₗ Address) :=
  ((places db token).sort (· ≤ ·)).take SOLVER_CONNECTOR_RANK_K

theorem page_leading (db : Database) (token : Address) : Leading SOLVER_CONNECTOR_RANK_K (places db token) (page db token) :=
  Leading.take_sort _ _

theorem mem_rankStage : row ∈ rankStage db ↔ row ∈ directedRows db ∧ row.position ∈ page db row.token := by
  rw [rankStage, (List.mergeSort_perm _ _).mem_iff, List.mem_filter]
  refine and_congr_right fun inside => ?_
  have leading := page_leading db row.token
  have place := mem_places (mem_listOf.mpr ⟨inside, rfl⟩)
  have number := rowNumber_eq db row
  rw [directedRows] at number
  rw [decide_eq_true_eq, number]
  constructor
  · exact fun few => leading.mem_of_before place (by omega)
  · intro shown
    have few := leading.before_of_mem shown
    omega

theorem rankStage_nodup (db : Database) : ((rankStage db).map fun row => (row.token, row.neighbor)).Nodup := by
  rw [rankStage, ((List.mergeSort_perm _ _).map _).nodup_iff]
  exact (directed_nodup db).sublist (List.filter_sublist.map _)

theorem staged_perm (db : Database) (token : Address) :
    (((rankStage db).filter (·.token = token)).map RankRow.position).Perm (page db token) := by
  have leading := page_leading db token
  have nodup : ((rankStage db).filter (·.token = token)).Nodup := ((rankStage_nodup db).of_map _).filter _
  have listed : ∀ row ∈ (rankStage db).filter (·.token = token), row ∈ listOf db token := fun row member => by
    obtain ⟨staged, own⟩ := List.mem_filter.mp member
    exact mem_listOf.mpr ⟨(mem_rankStage.mp staged).1, by simpa using own⟩
  refine (List.perm_ext_iff_of_nodup ?_ (leading.ascending.imp ne_of_lt)).mpr fun place => ?_
  · exact List.Nodup.map_on (fun _ first _ second same => position_inj (listed _ first) (listed _ second) same) nodup
  · constructor
    · intro member
      obtain ⟨row, kept, rfl⟩ := List.mem_map.mp member
      obtain ⟨staged, own⟩ := List.mem_filter.mp kept
      rw [decide_eq_true_eq] at own
      exact own ▸ (mem_rankStage.mp staged).2
    · intro shown
      obtain ⟨row, member, rfl⟩ := List.mem_map.mp (List.mem_toFinset.mp (leading.inside place shown))
      obtain ⟨inside, own⟩ := mem_listOf.mp member
      exact List.mem_map_of_mem (List.mem_filter.mpr ⟨mem_rankStage.mpr ⟨inside, own ▸ shown⟩, by simpa using own⟩)

theorem staged_le (db : Database) (token : Address) :
    ((rankStage db).filter (·.token = token)).length ≤ SOLVER_CONNECTOR_RANK_K := by
  rw [← List.length_map RankRow.position, (staged_perm db token).length_eq]
  exact (page_leading db token).short

theorem cut_behind (inside : row ∈ directedRows db) (cut : row ∉ rankStage db) :
    ((rankStage db).filter (·.token = row.token)).length = SOLVER_CONNECTOR_RANK_K ∧
      ∀ kept ∈ rankStage db, kept.token = row.token → row.tvlUsd ≤ kept.tvlUsd := by
  rcases (page_leading db row.token).first _ (mem_places (mem_listOf.mpr ⟨inside, rfl⟩)) with shown | ⟨full, ahead⟩
  · exact absurd (mem_rankStage.mpr ⟨inside, shown⟩) cut
  · refine ⟨?_, fun kept staged own => ?_⟩
    · rw [← List.length_map RankRow.position, (staged_perm db row.token).length_eq, full]
    · exact tvl_le_of_position (ahead _ (own ▸ (mem_rankStage.mp staged).2))

theorem rebuild_ok (now : ℤ) (db : Database) :
    rebuildSolverConnectorRank now db = .ok (publishSolverConnectorRank now (rankStage db) db) := by
  unfold rebuildSolverConnectorRank
  dsimp only
  rw [if_neg]
  intro wide
  obtain ⟨token, -, more⟩ := List.any_eq_true.mp wide
  have bound := staged_le db token
  rw [decide_eq_true_eq] at more
  omega

end Cut

def Candidate.swap (c : Candidate) : Candidate :=
  { c with aTvlUsd := c.bTvlUsd, bTvlUsd := c.aTvlUsd, aProtocolMask := c.bProtocolMask, bProtocolMask := c.aProtocolMask }

def Ahead (c other : Candidate) : Prop :=
  min other.aTvlUsd other.bTvlUsd < min c.aTvlUsd c.bTvlUsd ∨
    min c.aTvlUsd c.bTvlUsd = min other.aTvlUsd other.bTvlUsd ∧ c.token < other.token

def Shares (db : Database) (protocolMask : ℕ) (x c : Address) : Prop :=
  ∃ tvl proto, PoolBetween db x c tvl proto ∧ protoBit proto &&& protocolMask ≠ 0

def Reaches (db : Database) (side : Side) (x c : Address) : Prop :=
  side.truncated = false ∨
    ∃ tvl floor, IsGreatest {t | ∃ proto, PoolBetween db x c t proto} tvl ∧ side.floorUsd = some floor ∧ floor < tvl

structure ConnectorLaw (db : Database) (tokenA tokenB : Address) (protocolMask : ℕ) (limit : ℤ) : Prop where
  once : ((solverConnectorCandidates db tokenA tokenB protocolMask limit).map Candidate.token).Nodup
  ordered : (solverConnectorCandidates db tokenA tokenB protocolMask limit).Pairwise Ahead
  sound : ∀ c ∈ solverConnectorCandidates db tokenA tokenB protocolMask limit,
    Shares db protocolMask tokenA c.token ∧ Shares db protocolMask tokenB c.token ∧ c.bottleneckUsd = min c.aTvlUsd c.bTvlUsd ∧
      IsGreatest {t | ∃ proto, PoolBetween db tokenA c.token t proto} c.aTvlUsd ∧
      IsGreatest {t | ∃ proto, PoolBetween db tokenB c.token t proto} c.bTvlUsd
  /-- A token that is not listed stands behind as many as the limit. -/
  complete : ∀ token, Shares db protocolMask tokenA token → Shares db protocolMask tokenB token →
    Reaches db (solverConnectorSide db tokenA) tokenA token → Reaches db (solverConnectorSide db tokenB) tokenB token →
    (∃ c ∈ solverConnectorCandidates db tokenA tokenB protocolMask limit, c.token = token) ∨
      (solverConnectorCandidates db tokenA tokenB protocolMask limit).length = limit ∧
      ∃ own : Candidate, own.token = token ∧ IsGreatest {t | ∃ proto, PoolBetween db tokenA token t proto} own.aTvlUsd ∧
        IsGreatest {t | ∃ proto, PoolBetween db tokenB token t proto} own.bTvlUsd ∧
        ∀ c ∈ solverConnectorCandidates db tokenA tokenB protocolMask limit, Ahead c own
  symmetric : solverConnectorCandidates db tokenB tokenA protocolMask limit =
    (solverConnectorCandidates db tokenA tokenB protocolMask limit).map Candidate.swap

variable {c : Candidate}

section Probe

variable {rank : List RankRow} (key : (rank.map fun row => (row.token, row.neighbor)).Nodup)
include key

theorem probe_eq_some {token neighbor : Address} {b : RankRow} :
    probe rank token neighbor = some b ↔ b ∈ rank ∧ b.token = token ∧ b.neighbor = neighbor := by
  constructor
  · intro found
    exact ⟨List.mem_of_find?_eq_some found, by simpa using List.find?_some found⟩
  · rintro ⟨inside, rfl, rfl⟩
    cases found : probe rank b.token b.neighbor with
    | none => simpa using List.find?_eq_none.mp found b inside
    | some other =>
      have own : other.token = b.token ∧ other.neighbor = b.neighbor := by simpa using List.find?_some found
      rw [List.inj_on_of_nodup_map key (List.mem_of_find?_eq_some found) inside (Prod.ext own.1 own.2)]

variable {tokenA tokenB : Address} {protocolMask : ℕ}

def join (protocolMask : ℕ) (a b : RankRow) : Candidate :=
  { token := a.neighbor, bottleneckUsd := min a.tvlUsd b.tvlUsd, aTvlUsd := a.tvlUsd, bTvlUsd := b.tvlUsd
    aProtocolMask := a.protoMask &&& protocolMask, bProtocolMask := b.protoMask &&& protocolMask
    approx := a.approx || b.approx }

theorem candidate_eq_some {a : RankRow} : candidate rank tokenA tokenB protocolMask a = some c ↔
    ∃ b ∈ rank, a.token = tokenA ∧ b.token = tokenB ∧ b.neighbor = a.neighbor ∧ a.neighbor ≠ tokenB ∧
      a.protoMask &&& protocolMask ≠ 0 ∧ b.protoMask &&& protocolMask ≠ 0 ∧ c = join protocolMask a b := by
  unfold candidate
  by_cases own : a.token = tokenA
  · rw [if_pos own]
    cases found : probe rank tokenB a.neighbor with
    | none =>
      simp only [reduceCtorEq, false_iff]
      rintro ⟨b, inside, -, token, neighbor, -⟩
      rw [(probe_eq_some key).mpr ⟨inside, token, neighbor⟩] at found
      cases found
    | some b =>
      obtain ⟨inside, token, neighbor⟩ := (probe_eq_some key).mp found
      dsimp only
      rw [token]
      constructor
      · intro made
        split at made
        · rename_i tests
          exact ⟨b, inside, own, token, neighbor, tests.1, tests.2.1, tests.2.2, (Option.some_inj.mp made).symm⟩
        · cases made
      · rintro ⟨b', inside', -, token', neighbor', apart, first, second, rfl⟩
        have same := (probe_eq_some key).mpr ⟨inside', token', neighbor'⟩
        rw [found, Option.some_inj] at same
        subst same
        rw [if_pos ⟨apart, first, second⟩, join]
  · rw [if_neg own]
    simp [own]

def joined (rank : List RankRow) (tokenA tokenB : Address) (protocolMask : ℕ) : List Candidate :=
  rank.filterMap (candidate rank tokenA tokenB protocolMask)

theorem mem_joined : c ∈ joined rank tokenA tokenB protocolMask ↔
    ∃ a ∈ rank, ∃ b ∈ rank, a.token = tokenA ∧ b.token = tokenB ∧ b.neighbor = a.neighbor ∧ a.neighbor ≠ tokenB ∧
      a.protoMask &&& protocolMask ≠ 0 ∧ b.protoMask &&& protocolMask ≠ 0 ∧ c = join protocolMask a b := by
  simp only [joined, List.mem_filterMap, candidate_eq_some key]

theorem joined_nodup : ((joined rank tokenA tokenB protocolMask).map Candidate.token).Nodup := by
  refine List.pairwise_map.mpr ?_
  rw [joined, List.pairwise_filterMap]
  refine (List.pairwise_map.mp key).imp fun {a a'} apart c made c' made' same => apart ?_
  obtain ⟨b, -, own, -, -, -, -, -, rfl⟩ := (candidate_eq_some key).mp made
  obtain ⟨b', -, own', -, -, -, -, -, rfl⟩ := (candidate_eq_some key).mp made'
  exact Prod.ext (own.trans own'.symm) same

end Probe

section Order

def Candidate.position (c : Candidate) : ℚᵒᵈ ×ₗ Address := toLex (OrderDual.toDual c.bottleneckUsd, c.token)

theorem candidateOrder_iff {c other : Candidate} : candidateOrder c other ↔ c.position ≤ other.position := by
  simp [candidateOrder, Candidate.position, Prod.Lex.toLex_le_toLex]

theorem candidateOrder_trans (c d e : Candidate) : candidateOrder c d → candidateOrder d e → candidateOrder c e := by
  simp only [candidateOrder_iff]
  exact le_trans

theorem candidateOrder_total (c d : Candidate) : candidateOrder c d || candidateOrder d c := by
  simpa [candidateOrder_iff] using le_total _ _

theorem token_of_position {c other : Candidate} (same : c.position = other.position) : c.token = other.token := by
  simp only [Candidate.position, EmbeddingLike.apply_eq_iff_eq, Prod.mk.injEq] at same
  exact same.2

theorem ahead_of_order {c other : Candidate} (order : candidateOrder c other) (apart : c.token ≠ other.token)
    (thin : c.bottleneckUsd = min c.aTvlUsd c.bTvlUsd) (thin' : other.bottleneckUsd = min other.aTvlUsd other.bTvlUsd) :
    Ahead c other := by
  have less := lt_of_le_of_ne (candidateOrder_iff.mp order) fun same => apart (token_of_position same)
  rw [Ahead, ← thin, ← thin']
  rcases Prod.Lex.toLex_lt_toLex.mp less with deeper | ⟨same, before⟩
  · exact .inl (OrderDual.toDual_lt_toDual.mp deeper)
  · exact .inr ⟨OrderDual.toDual_inj.mp same, before⟩

variable {limit : ℤ} {rows : List Candidate}

theorem limited_sublist : (limited limit rows).Sublist rows := by
  unfold limited
  split
  · exact List.Sublist.refl rows
  · exact List.take_sublist _ _

theorem limited_map (f : Candidate → Candidate) : limited limit (rows.map f) = (limited limit rows).map f := by
  unfold limited
  split
  · rfl
  · exact List.map_take.symm

theorem limited_behind {r : Candidate → Candidate → Prop} (sorted : rows.Pairwise r) (inside : c ∈ rows)
    (left : c ∉ limited limit rows) : (limited limit rows).length = limit ∧ ∀ d ∈ limited limit rows, r d c := by
  unfold limited at left ⊢
  split at left
  · exact absurd inside left
  · rename_i bounded
    rw [if_neg bounded]
    rw [← List.take_append_drop limit.toNat rows] at inside sorted
    have late := (List.mem_append.mp inside).resolve_left left
    have long := List.length_pos_of_mem late
    rw [List.length_drop] at long
    refine ⟨?_, fun d early => (List.pairwise_append.mp sorted).2.2 d early c late⟩
    rw [List.length_take]
    omega

end Order

section Rebuilt

variable {db : Database} {tokenA tokenB : Address} {protocolMask : ℕ} {limit : ℤ}

abbrev rebuilt (now : ℤ) (db : Database) : Database := publishSolverConnectorRank now (rankStage db) db

theorem isEdge_of_staged {row : RankRow} (staged : row ∈ rankStage db) :
    IsEdge db row.token row.neighbor row.tvlUsd row.protoMask :=
  isEdge_of_directed (mem_rankStage.mp staged).1

theorem staged_apart {row : RankRow} (staged : row ∈ rankStage db) : row.token ≠ row.neighbor := by
  obtain ⟨proto, _, _, _, _, _, _, _, _, _, apart, _⟩ := (isEdge_of_staged staged).greatest.1
  exact apart

theorem joined_swap : (joined (rankStage db) tokenB tokenA protocolMask).Perm
    ((joined (rankStage db) tokenA tokenB protocolMask).map Candidate.swap) := by
  have key := rankStage_nodup db
  have nodup : ((joined (rankStage db) tokenA tokenB protocolMask).map Candidate.swap).Nodup := by
    refine List.Nodup.of_map Candidate.token ?_
    rw [List.map_map]
    exact joined_nodup key
  refine (List.perm_ext_iff_of_nodup ((joined_nodup key).of_map _) nodup).mpr fun c => ?_
  rw [List.mem_map, mem_joined key]
  constructor
  · rintro ⟨b, second, a, first, tokenOfB, tokenOfA, same, apart, common, common', rfl⟩
    refine ⟨join protocolMask a b, (mem_joined key).mpr ?_, ?_⟩
    · refine ⟨a, first, b, second, tokenOfA, tokenOfB, same.symm, ?_, common', common, rfl⟩
      rw [same, ← tokenOfB]
      exact (staged_apart second).symm
    · simp [join, Candidate.swap, same, min_comm, Bool.or_comm]
  · rintro ⟨c', member, rfl⟩
    obtain ⟨a, first, b, second, tokenOfA, tokenOfB, same, apart, common, common', rfl⟩ := (mem_joined key).mp member
    refine ⟨b, second, a, first, tokenOfB, tokenOfA, same.symm, ?_, common', common, ?_⟩
    · rw [same, ← tokenOfA]
      exact (staged_apart first).symm
    · simp [join, Candidate.swap, same, min_comm, Bool.or_comm]

theorem staged_of_reaches (now : ℤ) {x c : Address} (shares : Shares db protocolMask x c)
    (reaches : Reaches db (solverConnectorSide (rebuilt now db) x) x c) :
    ∃ row ∈ rankStage db, row.token = x ∧ row.neighbor = c ∧ row.protoMask &&& protocolMask ≠ 0 := by
  obtain ⟨t, proto, pool, common⟩ := shares
  obtain ⟨row, inside, rfl, rfl⟩ := directed_exists pool
  have edge := isEdge_of_directed inside
  refine ⟨row, ?_, rfl, rfl, (edge.mask protocolMask).mpr ⟨t, proto, pool, common⟩⟩
  by_contra cut
  obtain ⟨full, above⟩ := cut_behind inside cut
  rcases reaches with whole | ⟨tvl, floor, greatest, floorEq, below⟩
  · simp [solverConnectorSide, rebuilt, publishSolverConnectorRank, full] at whole
  · obtain ⟨lowest, -⟩ := List.min?_eq_some_iff.mp floorEq
    obtain ⟨kept, member, rfl⟩ := List.mem_map.mp lowest
    obtain ⟨staged, own⟩ := List.mem_filter.mp member
    have more := above kept staged (by simpa using own)
    rw [greatest.unique edge.greatest] at below
    exact absurd below (not_lt.mpr more)

def ranking (db : Database) (tokenA tokenB : Address) (protocolMask : ℕ) : List Candidate :=
  (joined (rankStage db) tokenA tokenB protocolMask).mergeSort candidateOrder

theorem candidates_eq (now : ℤ) : solverConnectorCandidates (rebuilt now db) tokenA tokenB protocolMask limit =
    limited limit (ranking db tokenA tokenB protocolMask) := rfl

theorem mem_ranking : c ∈ ranking db tokenA tokenB protocolMask ↔
    ∃ a ∈ rankStage db, ∃ b ∈ rankStage db, a.token = tokenA ∧ b.token = tokenB ∧ b.neighbor = a.neighbor ∧ a.neighbor ≠ tokenB ∧
      a.protoMask &&& protocolMask ≠ 0 ∧ b.protoMask &&& protocolMask ≠ 0 ∧ c = join protocolMask a b := by
  rw [ranking, (List.mergeSort_perm _ _).mem_iff, mem_joined (rankStage_nodup db)]

theorem ranking_nodup : ((ranking db tokenA tokenB protocolMask).map Candidate.token).Nodup := by
  rw [ranking, ((List.mergeSort_perm _ _).map _).nodup_iff]
  exact joined_nodup (rankStage_nodup db)

theorem ranking_ordered : (ranking db tokenA tokenB protocolMask).Pairwise Ahead := by
  have sorted := List.pairwise_mergeSort candidateOrder_trans candidateOrder_total
    (joined (rankStage db) tokenA tokenB protocolMask)
  have thin : ∀ c ∈ ranking db tokenA tokenB protocolMask, c.bottleneckUsd = min c.aTvlUsd c.bTvlUsd := fun c member => by
    obtain ⟨a, -, b, -, -, -, -, -, -, -, rfl⟩ := mem_ranking.mp member
    rfl
  refine (sorted.and (List.pairwise_map.mp ranking_nodup)).imp_of_mem ?_
  intro c other first second both
  exact ahead_of_order both.1 both.2 (thin c first) (thin other second)

theorem ranking_swap : ranking db tokenB tokenA protocolMask = (ranking db tokenA tokenB protocolMask).map Candidate.swap := by
  have sorted := List.pairwise_mergeSort candidateOrder_trans candidateOrder_total
  have perm : (ranking db tokenB tokenA protocolMask).Perm ((ranking db tokenA tokenB protocolMask).map Candidate.swap) :=
    ((List.mergeSort_perm _ _).trans joined_swap).trans ((List.mergeSort_perm _ _).symm.map _)
  refine List.Perm.eq_of_pairwise ?_ (sorted _) (List.pairwise_map.mpr (sorted _)) perm
  intro c other first second order back
  have same := le_antisymm (candidateOrder_iff.mp order) (candidateOrder_iff.mp back)
  exact List.inj_on_of_nodup_map ranking_nodup first (perm.mem_iff.mpr second) (token_of_position same)

theorem ranking_sound (listed : c ∈ ranking db tokenA tokenB protocolMask) :
    Shares db protocolMask tokenA c.token ∧ Shares db protocolMask tokenB c.token ∧ c.bottleneckUsd = min c.aTvlUsd c.bTvlUsd ∧
      IsGreatest {t | ∃ proto, PoolBetween db tokenA c.token t proto} c.aTvlUsd ∧
      IsGreatest {t | ∃ proto, PoolBetween db tokenB c.token t proto} c.bTvlUsd := by
  obtain ⟨a, first, b, second, rfl, rfl, same, -, common, common', rfl⟩ := mem_ranking.mp listed
  have edge := isEdge_of_staged first
  have edge' := isEdge_of_staged second
  rw [same] at edge'
  exact ⟨(edge.mask _).mp common, (edge'.mask _).mp common', rfl, edge.greatest, edge'.greatest⟩

theorem ranking_complete (now : ℤ) {token : Address} (sharesA : Shares db protocolMask tokenA token)
    (sharesB : Shares db protocolMask tokenB token)
    (reachesA : Reaches db (solverConnectorSide (rebuilt now db) tokenA) tokenA token)
    (reachesB : Reaches db (solverConnectorSide (rebuilt now db) tokenB) tokenB token) :
    ∃ c ∈ ranking db tokenA tokenB protocolMask, c.token = token := by
  obtain ⟨a, first, tokenOfA, neighbor, common⟩ := staged_of_reaches now sharesA reachesA
  obtain ⟨b, second, tokenOfB, neighbor', common'⟩ := staged_of_reaches now sharesB reachesB
  have apart : a.neighbor ≠ tokenB := by
    rw [neighbor, ← neighbor', ← tokenOfB]
    exact (staged_apart second).symm
  exact ⟨join protocolMask a b, mem_ranking.mpr ⟨a, first, b, second, tokenOfA, tokenOfB, neighbor'.trans neighbor.symm, apart,
    common, common', rfl⟩, neighbor⟩

/-- After a rebuild the candidates are sound, ordered, complete down to the floors and symmetric. -/
theorem connector_law (now : ℤ) (db : Database) : ∃ db', rebuildSolverConnectorRank now db = .ok db' ∧ db'.pools = db.pools ∧
    db'.poolState = db.poolState ∧
      ∀ tokenA tokenB protocolMask limit, ConnectorLaw db' tokenA tokenB protocolMask limit := by
  refine ⟨rebuilt now db, rebuild_ok now db, rfl, rfl, fun tokenA tokenB protocolMask limit => ?_⟩
  have part : (limited limit (ranking db tokenA tokenB protocolMask)).Sublist _ := limited_sublist
  refine ⟨ranking_nodup.sublist (part.map _), ranking_ordered.sublist part, fun c listed => ranking_sound (part.subset listed),
    ?_, ?_⟩
  · intro token sharesA sharesB reachesA reachesB
    obtain ⟨c, member, rfl⟩ := ranking_complete now sharesA sharesB reachesA reachesB
    by_cases listed : c ∈ limited limit (ranking db tokenA tokenB protocolMask)
    · exact .inl ⟨c, listed, rfl⟩
    · obtain ⟨full, ahead⟩ := limited_behind ranking_ordered member listed
      have sound := ranking_sound member
      exact .inr ⟨full, c, rfl, sound.2.2.2.1, sound.2.2.2.2, ahead⟩
  · rw [candidates_eq, candidates_eq, ranking_swap, limited_map]

end Rebuilt

end LpTerminal.Catalog.ConnectorRank
