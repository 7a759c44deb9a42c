import LpTerminal.Api.ServedPools
import LpTerminal.Lib.Keyset
import Mathlib

/-!
The `/api/pool-groups` request: one row for each token of a proven origin, with what its pools add up to, and a client that follows
its cursor. The pools shown inside a group and the token metadata are left out.
-/

namespace LpTerminal.Api

open Catalog Fallible

structure V4MarketRow where
  poolId : Digest
  vol24hUsd : Option ℚ
  liqUsd : Option ℚ
  tvlUsd : Option ℚ
  statsUpdated : Option Nat

abbrev Issuer := Nat

structure StockRow where
  address : Address
  issuer : Option Issuer

/-- Addresses are twenty bytes, and a factory or the PoolManager takes no pool of a token with itself. -/
structure GroupStore where
  pools : Table Pool.address
  v4Pools : Table V4Pool.poolId
  poolState : Table StateRow.address
  poolStats : Table StatsRow.address
  v4MarketStats : Table V4MarketRow.poolId
  v4LaunchpadTokens : Table (fun address : Address => address)
  stockTokens : Table StockRow.address
  sides : ∀ pool ∈ pools.rows, pool.token0 ≠ pool.token1
  v4Sides : ∀ pool ∈ v4Pools.rows, pool.currency0 ≠ pool.currency1
  launchpadBytes : ∀ address ∈ v4LaunchpadTokens.rows, address < 16 ^ 40
  stockBytes : ∀ row ∈ stockTokens.rows, row.address < 16 ^ 40

inductive Origin
  | launchpad
  | stock (issuer : Issuer)

/-- `originTokensSql`. -/
def originTokens (store : GroupStore) : Origin → List Address
  | .launchpad => store.v4LaunchpadTokens.rows
  | .stock issuer => (store.stockTokens.rows.filter fun row => row.issuer = some issuer).map StockRow.address

def DYNAMIC_FEE_FLAG : Nat := 0x800000

def HOOKLESS : Address := 0

structure Member where
  token : Address
  tvlUsd : Option ℚ
  vol24hUsd : Option ℚ
  feePpm : Option Nat
  feeUsable : Bool

/-- `INDEX_V2 ? '' : " AND p.proto IN ('univ3', 'pancakev3')"`. -/
def v23ProtocolFilter (tune : Tune) (pool : Pool) : Bool := tune.indexV2 || pool.proto = .univ3 || pool.proto = .pancakev3

/-- `unixepoch() - MARKET_STATS_TTL_SECONDS`, compared with a time that may be null. -/
def observedLately (tune : Tune) (now : Nat) (updated : Option Nat) : Bool :=
  updated.any fun updated => now ≤ updated + tune.marketStatsTtlSeconds

def v23Member (tune : Tune) (store : GroupStore) (now : Nat) (token : Pool → Address) (pool : Pool) : Member where
  token := token pool
  tvlUsd := (store.poolState.get? pool.address).bind StateRow.tvlUsd
  vol24hUsd :=
    let stats := store.poolStats.get? pool.address
    if observedLately tune now (stats.map StatsRow.updated) then stats.bind StatsRow.vol24hUsd else none
  feePpm := some pool.feePpm
  feeUsable := true

def v4Member (tune : Tune) (store : GroupStore) (now : Nat) (token : V4Pool → Address) (pool : V4Pool) : Member where
  token := token pool
  tvlUsd :=
    let stats := store.v4MarketStats.get? pool.poolId
    (stats.bind V4MarketRow.tvlUsd).or
      (if observedLately tune now (stats.bind V4MarketRow.statsUpdated) then stats.bind V4MarketRow.liqUsd else none)
  vol24hUsd :=
    let stats := store.v4MarketStats.get? pool.poolId
    if observedLately tune now (stats.bind V4MarketRow.statsUpdated) then stats.bind V4MarketRow.vol24hUsd else none
  feePpm := pool.keyFeePpm
  feeUsable := !(pool.keyFeePpm = some DYNAMIC_FEE_FLAG || pool.hooks ≠ HOOKLESS)

/-- `groupMembersSql`: each branch joins the proven tokens with one side of the pools of one catalog. -/
def groupMembers (tune : Tune) (store : GroupStore) (now : Nat) (origin : Origin) : List Member :=
  let proven := originTokens store origin
  let v23 (token : Pool → Address) := proven.flatMap fun address =>
    (store.pools.rows.filter fun pool => token pool = address && v23ProtocolFilter tune pool).map (v23Member tune store now token)
  let v4 (token : V4Pool → Address) := proven.flatMap fun address =>
    (store.v4Pools.rows.filter fun pool => token pool = address).map (v4Member tune store now token)
  v23 Pool.token0 ++ v23 Pool.token1 ++ v4 V4Pool.currency0 ++ v4 V4Pool.currency1

structure GroupRow where
  token : Address
  poolCount : Nat
  tvlUsd : Option ℚ
  vol24hUsd : Option ℚ
  fees24hUsd : Option ℚ
  feePools : Nat
  feeApr : Option ℚ

/-- `SUM`, which is null where no value is not. -/
def sumOf (values : List (Option ℚ)) : Option ℚ := if values.reduceOption = [] then none else some values.reduceOption.sum

def Member.fee (member : Member) : Option ℚ :=
  if member.feeUsable then
    match member.feePpm, member.vol24hUsd with
    | some feePpm, some vol => some (vol * feePpm / 1000000)
    | _, _ => none
  else none

def feeAprOf (tvl fees : Option ℚ) : Option ℚ :=
  match tvl, fees with
  | some tvl, some fees => if 0 < tvl then some (fees * 365 / tvl) else none
  | _, _ => none

def aggregate (token : Address) (members : List Member) : GroupRow :=
  let tvl := sumOf (members.map Member.tvlUsd)
  let fees := sumOf (members.map Member.fee)
  { token
    poolCount := members.length
    tvlUsd := tvl
    vol24hUsd := sumOf (members.map Member.vol24hUsd)
    fees24hUsd := fees
    feePools := members.countP fun member => member.fee.isSome
    feeApr := feeAprOf tvl fees }

/-- `GROUP BY token`. -/
def groupsOf (members : List Member) : List GroupRow :=
  (members.map Member.token).dedup.map fun token => aggregate token (members.filter fun member => member.token = token)

inductive GroupSortKey
  | tvl
  | vol
  | fees
  | feeApr

/-- `GROUP_SORT_VALUE`, and the column of `GROUP_SORT_COLUMN`. -/
def GroupRow.value (row : GroupRow) : GroupSortKey → Option ℚ
  | .tvl => row.tvlUsd
  | .vol => row.vol24hUsd
  | .fees => row.fees24hUsd
  | .feeApr => row.feeApr

abbrev Text := List Char

/-- What JavaScript writes for a finite number, and what `Number` reads back. -/
structure NumberText where
  print : ℚ → Text
  parse : Text → Option ℚ
  parse_print : ∀ value, parse (print value) = some value
  print_some : ∀ value, print value ≠ []
  print_measured : ∀ value, print value ≠ ['-']

def GROUP_CURSOR_UNMEASURED : Text := ['-']

def hexDigits : Text := ['0', '1', '2', '3', '4', '5', '6', '7', '8', '9', 'a', 'b', 'c', 'd', 'e', 'f']

def hexDigit (digit : Nat) : Char := hexDigits.getD digit '0'

def hexText : Nat → Nat → Text
  | 0, _ => []
  | places + 1, number => hexText places (number / 16) ++ [hexDigit (number % 16)]

def addressText (address : Address) : Text := ['0', 'x'] ++ hexText 40 address

/-- `HEX40` of a lower-case text, with the address that it spells. -/
def HEX40 (text : Text) : Option Address :=
  if text.take 2 = ['0', 'x'] ∧ (text.drop 2).length = 40 ∧ ∀ digit ∈ text.drop 2, digit ∈ hexDigits then
    some ((text.drop 2).foldl (fun number digit => number * 16 + hexDigits.idxOf digit) 0)
  else none

structure GroupCursor where
  value : Option ℚ
  token : Address

def encodeGroupCursor (numbers : NumberText) (row : GroupRow) (sort : GroupSortKey) : Text :=
  (match row.value sort with
    | none => GROUP_CURSOR_UNMEASURED
    | some value => numbers.print value) ++ '|' :: addressText row.token

def decodeGroupCursor (numbers : NumberText) (raw : Text) : Except Refusal GroupCursor :=
  match raw.reverse.dropWhile (· ≠ '|') with
  | [] | [_] => .error (.input "invalid group cursor")
  | _ :: front =>
    let value := front.reverse
    let token := (raw.reverse.takeWhile (· ≠ '|')).reverse.map Char.toLower
    match HEX40 token with
    | none => .error (.input "invalid group cursor token")
    | some token =>
      if value = GROUP_CURSOR_UNMEASURED then .ok ⟨none, token⟩
      else
        match numbers.parse value with
        | none => .error (.input "invalid group cursor value")
        | some value => .ok ⟨some value, token⟩

structure GroupParams where
  origin : Origin
  sort : GroupSortKey
  limit : Option ℤ
  minTvl : Option ℚ
  after : Option Text

structure GroupRequest where
  origin : Origin
  sort : GroupSortKey
  limit : Nat
  minTvl : ℚ
  after : Option GroupCursor

variable (numbers : NumberText) (tune : Tune) (stockIssuers : List Issuer)

/-- `Math.min(Math.max(Number(params.get('limit')) || 25, 1), 100)`. -/
def groupLimit (limit : Option ℤ) : Nat := (min (max (if limit = some 0 then 25 else limit.getD 25) 1) 100).toNat

def knownOrigin : Origin → Prop
  | .launchpad => True
  | .stock issuer => issuer ∈ stockIssuers

instance : ∀ origin, Decidable (knownOrigin stockIssuers origin)
  | .launchpad => isTrue trivial
  | .stock issuer => inferInstanceAs (Decidable (issuer ∈ stockIssuers))

def canonicalGroupsRequest (params : GroupParams) : Except Refusal GroupRequest := do
  let after ← match params.after with
    | none => .ok none
    | some raw => (decodeGroupCursor numbers raw).map some
  return { origin := params.origin
           sort := params.sort
           limit := groupLimit params.limit
           minTvl := (params.minTvl.filter fun least => 0 < least).getD 0
           after }

structure GroupsPage where
  count : Option Nat
  nextCursor : Option Text
  groups : List GroupRow

/-- `WHERE tvl_usd >= ?`, where there is a minimum. -/
def having (minTvl : ℚ) (row : GroupRow) : Bool := !decide (0 < minTvl) || row.tvlUsd.any fun tvl => minTvl ≤ tvl

def cursorClause (sort : GroupSortKey) (cursor : GroupCursor) (row : GroupRow) : Bool :=
  match cursor.value, row.value sort with
  | none, none => cursor.token < row.token
  | none, some _ => false
  | some _, none => true
  | some bound, some value => value < bound || (value = bound && cursor.token < row.token)

/-- `ORDER BY … DESC NULLS LAST, token ASC`. -/
def groupBefore (sort : GroupSortKey) (first second : GroupRow) : Bool :=
  match first.value sort, second.value sort with
  | none, none => first.token ≤ second.token
  | none, some _ => false
  | some _, none => true
  | some a, some b => b < a || (b = a && first.token ≤ second.token)

def getPoolGroupsFor (store : GroupStore) (now : Nat) (request : GroupRequest) : Except Refusal GroupsPage := do
  demand (knownOrigin stockIssuers request.origin) (.input "unknown issuer in origin")
  let groups := (groupsOf (groupMembers tune store now request.origin)).filter (having request.minTvl)
  let rows := ((groups.filter fun row => request.after.all fun cursor => cursorClause request.sort cursor row).mergeSort
    (groupBefore request.sort)).take (request.limit + 1)
  let page := rows.take request.limit
  return { count := if request.after.isSome then none else some groups.length
           nextCursor :=
             if request.limit < rows.length then page.getLast?.map fun row => encodeGroupCursor numbers row request.sort else none
           groups := page }

def getPoolGroups (store : GroupStore) (now : Nat) (params : GroupParams) : Except Refusal GroupsPage := do
  getPoolGroupsFor numbers tune stockIssuers store now (← canonicalGroupsRequest numbers params)

structure GroupBrowse where
  origin : Origin
  sort : GroupSortKey
  limit : Option ℤ
  minTvl : Option ℚ

def GroupBrowse.params (browse : GroupBrowse) (after : Option Text) : GroupParams := { browse with after }

/-- A client that follows `nextCursor` for at most so many requests, the first of them at `clock sent`; none where it
stops before the last page. -/
def followGroups (store : GroupStore) (clock : Nat → Nat) (browse : GroupBrowse) :
    Nat → Nat → Option Text → Except Refusal (Option (List GroupsPage))
  | 0, _, _ => .ok none
  | requests + 1, sent, after => do
    let page ← getPoolGroups numbers tune stockIssuers store (clock sent) (browse.params after)
    match page.nextCursor with
    | none => return some [page]
    | some cursor => return (← followGroups store clock browse requests (sent + 1) (some cursor)).map (page :: ·)

variable {numbers : NumberText} {tune : Tune} {store : GroupStore} {now : Nat} {origin : Origin} {sort : GroupSortKey}

theorem hexDigit_mem (digit : Nat) : hexDigit digit ∈ hexDigits := by
  unfold hexDigit
  by_cases inside : digit < hexDigits.length
  · simp [List.getD_eq_getElem?_getD, inside]
  · rw [List.getD_eq_getElem?_getD, List.getElem?_eq_none (not_lt.mp inside)]
    decide

theorem idxOf_hexDigit {digit : Nat} (inside : digit < 16) : hexDigits.idxOf (hexDigit digit) = digit := by
  have all : ∀ digit < 16, hexDigits.idxOf (hexDigit digit) = digit := by decide
  exact all digit inside

theorem hexText_length (places number : Nat) : (hexText places number).length = places := by
  induction places generalizing number with
  | zero => rfl
  | succ places ih => simp [hexText, ih]

theorem mem_hexText {places number : Nat} {digit : Char} (member : digit ∈ hexText places number) :
    digit ∈ hexDigits := by
  induction places generalizing number with
  | zero => cases member
  | succ places ih =>
    rcases List.mem_append.mp member with front | last
    · exact ih front
    · rw [List.mem_singleton.mp last]
      exact hexDigit_mem _

theorem foldl_hexText {places number : Nat} (short : number < 16 ^ places) :
    (hexText places number).foldl (fun number digit => number * 16 + hexDigits.idxOf digit) 0 = number := by
  induction places generalizing number with
  | zero =>
    obtain rfl : number = 0 := by simpa using short
    rfl
  | succ places ih =>
    have front : number / 16 < 16 ^ places := by
      rw [pow_succ] at short
      exact Nat.div_lt_of_lt_mul (by rwa [mul_comm] at short)
    rw [hexText, List.foldl_append, ih front]
    simp only [List.foldl_cons, List.foldl_nil]
    rw [idxOf_hexDigit (Nat.mod_lt _ (by decide)), Nat.div_add_mod']

variable {address : Address}

theorem HEX40_addressText (short : address < 16 ^ 40) : HEX40 (addressText address) = some address := by
  have front : (addressText address).take 2 = ['0', 'x'] := List.take_left' rfl
  have digits : (addressText address).drop 2 = hexText 40 address := List.drop_left' rfl
  unfold HEX40
  rw [front, digits, if_pos ⟨rfl, hexText_length _ _, fun digit => mem_hexText⟩, foldl_hexText short]

theorem mem_addressText {c : Char} (member : c ∈ addressText address) : c = 'x' ∨ c ∈ hexDigits := by
  rcases List.mem_append.mp member with front | digits
  · rcases List.mem_pair.mp front with rfl | rfl
    · exact .inr (by decide)
    · exact .inl rfl
  · exact .inr (mem_hexText digits)

theorem addressText_lower (address : Address) : (addressText address).map Char.toLower = addressText address := by
  have own : ∀ c ∈ hexDigits, Char.toLower c = c := by
    have all : (hexDigits.all fun c => c.toLower == c) = true := rfl
    simpa using all
  conv_rhs => rw [← List.map_id (addressText address)]
  refine List.map_congr_left fun c member => ?_
  rcases mem_addressText member with rfl | digit
  · decide
  · exact own c digit

theorem addressText_noBar {c : Char} (member : c ∈ addressText address) : c ≠ '|' := by
  have plain : ∀ c ∈ hexDigits, c ≠ '|' := by
    have all : (hexDigits.all fun c => c != '|') = true := rfl
    simpa using all
  rcases mem_addressText member with rfl | digit
  · decide
  · exact plain c digit

variable {row : GroupRow}

theorem decode_encode (short : row.token < 16 ^ 40) :
    decodeGroupCursor numbers (encodeGroupCursor numbers row sort) = .ok ⟨row.value sort, row.token⟩ := by
  have split : ∀ value : Text, value ≠ [] →
      (value ++ '|' :: addressText row.token).reverse.dropWhile (· ≠ '|') = '|' :: value.reverse ∧
      (value ++ '|' :: addressText row.token).reverse.takeWhile (· ≠ '|') = (addressText row.token).reverse := by
    intro value _
    have plain : ∀ c ∈ (addressText row.token).reverse, (decide (c ≠ '|')) = true := by
      intro c member
      exact decide_eq_true (addressText_noBar (List.mem_reverse.mp member))
    rw [List.reverse_append, List.reverse_cons, List.append_assoc]
    constructor
    · rw [List.dropWhile_append_of_pos plain]
      simp
    · rw [List.takeWhile_append_of_pos plain]
      simp
  have some : ∀ value : Text, value ≠ [] → ∃ c rest, value.reverse = c :: rest := fun value nonempty =>
    List.exists_cons_of_ne_nil (by simpa using nonempty)
  unfold encodeGroupCursor
  cases value : row.value sort with
  | none =>
    have nonempty : GROUP_CURSOR_UNMEASURED ≠ [] := by decide
    obtain ⟨dropped, taken⟩ := split _ nonempty
    unfold decodeGroupCursor
    dsimp only
    rw [dropped, taken, List.reverse_reverse, addressText_lower, HEX40_addressText short]
    rfl
  | some figure =>
    obtain ⟨dropped, taken⟩ := split _ (numbers.print_some figure)
    obtain ⟨c, rest, front⟩ := some _ (numbers.print_some figure)
    unfold decodeGroupCursor
    dsimp only
    rw [dropped, taken, List.reverse_reverse, addressText_lower, HEX40_addressText short, front]
    dsimp only
    have measured : numbers.print figure ≠ GROUP_CURSOR_UNMEASURED := numbers.print_measured figure
    rw [← front, List.reverse_reverse, if_neg measured, numbers.parse_print]

abbrev Rank := WithTop ℚᵒᵈ ×ₗ Address

def rankOf (value : Option ℚ) (token : Address) : Rank :=
  toLex (match value with
    | none => ⊤
    | some value => (OrderDual.toDual value : ℚᵒᵈ), token)

def GroupRow.rank (sort : GroupSortKey) (row : GroupRow) : Rank := rankOf (row.value sort) row.token

def GroupCursor.rank (cursor : GroupCursor) : Rank := rankOf cursor.value cursor.token

theorem rankOf_lt {a b : Option ℚ} {s t : Address} :
    rankOf a s < rankOf b t ↔ match a, b with
      | none, none => s < t
      | none, some _ => False
      | some _, none => True
      | some a, some b => b < a ∨ b = a ∧ s < t := by
  unfold rankOf
  rw [Prod.Lex.toLex_lt_toLex]
  cases a with
  | none =>
    cases b with
    | none => simp
    | some b => simp
  | some a =>
    cases b with
    | none => simp [WithTop.coe_lt_top]
    | some b =>
      simp only [WithTop.coe_lt_coe, OrderDual.toDual_lt_toDual, WithTop.coe_inj, OrderDual.toDual_inj]
      rw [eq_comm]

theorem rankOf_le {a b : Option ℚ} {s t : Address} :
    rankOf a s ≤ rankOf b t ↔ match a, b with
      | none, none => s ≤ t
      | none, some _ => False
      | some _, none => True
      | some a, some b => b < a ∨ b = a ∧ s ≤ t := by
  unfold rankOf
  rw [Prod.Lex.toLex_le_toLex]
  cases a with
  | none =>
    cases b with
    | none => simp
    | some b => simp
  | some a =>
    cases b with
    | none => simp [WithTop.coe_lt_top]
    | some b =>
      simp only [WithTop.coe_lt_coe, OrderDual.toDual_lt_toDual, WithTop.coe_inj, OrderDual.toDual_inj]
      rw [eq_comm]

theorem cursorClause_iff {cursor : GroupCursor} :
    cursorClause sort cursor row = true ↔ cursor.rank < row.rank sort := by
  unfold GroupCursor.rank GroupRow.rank
  rw [rankOf_lt]
  unfold cursorClause
  cases cursor.value <;> cases row.value sort <;> simp

theorem groupBefore_iff {first second : GroupRow} : groupBefore sort first second = true ↔ first.rank sort ≤ second.rank sort := by
  unfold GroupRow.rank
  rw [rankOf_le]
  unfold groupBefore
  cases first.value sort <;> cases second.value sort <;> simp

theorem sorted_groups (rows : List GroupRow) :
    (rows.mergeSort (groupBefore sort)).Pairwise fun first second => first.rank sort ≤ second.rank sort := by
  have trans : ∀ a b c : GroupRow, groupBefore sort a b → groupBefore sort b c → groupBefore sort a c := by
    intro a b c
    simp only [groupBefore_iff]
    exact le_trans
  have total : ∀ a b : GroupRow, groupBefore sort a b || groupBefore sort b a := by
    intro a b
    rw [Bool.or_eq_true]
    simp only [groupBefore_iff]
    exact le_total _ _
  have pairs := List.pairwise_mergeSort trans total rows
  exact pairs.imp groupBefore_iff.mp

theorem rank_token {first second : GroupRow} (same : first.rank sort = second.rank sort) : first.token = second.token :=
  congrArg (fun rank : Rank => (ofLex rank).2) same

def listingOf (sort : GroupSortKey) (rows : List GroupRow) (apart : (rows.map GroupRow.token).Nodup) : Table (GroupRow.rank sort) where
  rows := rows.mergeSort (groupBefore sort)
  sorted := by
    have distinct : ((rows.mergeSort (groupBefore sort)).map GroupRow.token).Nodup :=
      (((List.mergeSort_perm rows _).map GroupRow.token).nodup_iff).mpr apart
    have unequal : (rows.mergeSort (groupBefore sort)).Pairwise fun first second => first.token ≠ second.token :=
      List.pairwise_map.mp distinct
    exact (sorted_groups rows).imp₂ (fun first second le different => le.lt_of_ne fun same => different (rank_token same)) unequal

theorem groupListing_filter {rows : List GroupRow} (apart : (rows.map GroupRow.token).Nodup) (p : GroupRow → Bool) :
    (rows.filter p).mergeSort (groupBefore sort) = (listingOf sort rows apart).rows.filter p := by
  have perm : ((rows.filter p).mergeSort (groupBefore sort)).Perm ((listingOf sort rows apart).rows.filter p) :=
    (List.mergeSort_perm _ _).trans ((List.mergeSort_perm rows _).symm.filter p)
  have strict := (listingOf sort rows apart).sorted.filter p
  refine perm.eq_of_pairwise ?_ (sorted_groups _) (strict.imp le_of_lt)
  intro first second _ member le ge
  have same := rank_token (le_antisymm le ge)
  have there : second ∈ rows.filter p := (List.mergeSort_perm _ _).subset (perm.symm.subset member)
  have here : first ∈ rows.filter p := (List.mergeSort_perm _ _).subset ‹_›
  exact List.inj_on_of_nodup_map apart (List.mem_of_mem_filter here) (List.mem_of_mem_filter there) same

variable {members : List Member}

theorem mem_groupsOf :
    row ∈ groupsOf members ↔ ∃ token ∈ members.map Member.token,
      row = aggregate token (members.filter fun member => member.token = token) := by
  unfold groupsOf
  simp [eq_comm]

theorem groupsOf_apart (members : List Member) : ((groupsOf members).map GroupRow.token).Nodup := by
  have tokens : (groupsOf members).map GroupRow.token = (members.map Member.token).dedup := by
    unfold groupsOf
    rw [List.map_map]
    exact List.map_id _
  rw [tokens]
  exact List.nodup_dedup _

theorem filtered_apart (members : List Member) (minTvl : ℚ) :
    (((groupsOf members).filter (having minTvl)).map GroupRow.token).Nodup :=
  (groupsOf_apart members).sublist (List.filter_sublist.map _)

def GroupBrowse.least (browse : GroupBrowse) : ℚ := (browse.minTvl.filter fun least => 0 < least).getD 0

def GroupBrowse.listing (browse : GroupBrowse) (members : List Member) : Table (GroupRow.rank browse.sort) :=
  listingOf browse.sort ((groupsOf members).filter (having browse.least)) (filtered_apart members browse.least)

variable {browse : GroupBrowse} {stockIssuers : List Issuer}

theorem mem_groupListing :
    row ∈ (browse.listing members).rows ↔ row ∈ groupsOf members ∧ having browse.least row := by
  unfold GroupBrowse.listing listingOf
  rw [(List.mergeSort_perm _ _).mem_iff, List.mem_filter]

theorem groupListing_length (members : List Member) :
    (browse.listing members).rows.length = ((groupsOf members).filter (having browse.least)).length := by
  unfold GroupBrowse.listing listingOf
  rw [List.length_mergeSort]

theorem groupLimit_pos (limit : Option ℤ) : 1 ≤ groupLimit limit := by
  unfold groupLimit
  omega

def GroupBrowse.page (browse : GroupBrowse) (numbers : NumberText) (members : List Member) (cursor : Option GroupCursor) :
    GroupsPage :=
  let rest := (browse.listing members).after (cursor.map GroupCursor.rank)
  let shown := rest.take (groupLimit browse.limit)
  { count := if cursor.isSome then none else some (browse.listing members).rows.length
    nextCursor :=
      if groupLimit browse.limit < rest.length then shown.getLast?.map fun row => encodeGroupCursor numbers row browse.sort else none
    groups := shown }

theorem getPoolGroups_page (known : knownOrigin stockIssuers browse.origin) {after : Option Text} {cursor : Option GroupCursor}
    (read : after.map (decodeGroupCursor numbers) = cursor.map .ok) :
    getPoolGroups numbers tune stockIssuers store now (browse.params after) =
      .ok (browse.page numbers (groupMembers tune store now browse.origin) cursor) := by
  set members := groupMembers tune store now browse.origin with groups
  set limit := groupLimit browse.limit with bound
  have request : canonicalGroupsRequest numbers (browse.params after) =
      .ok ⟨browse.origin, browse.sort, limit, browse.least, cursor⟩ := by
    unfold canonicalGroupsRequest
    cases after with
    | none =>
      cases cursor with
      | none => rfl
      | some cursor => cases read
    | some raw =>
      cases cursor with
      | none => cases read
      | some cursor =>
        have told : decodeGroupCursor numbers raw = .ok cursor := Option.some.inj read
        change (do
          let after ← (decodeGroupCursor numbers raw).map some
          pure (⟨browse.origin, browse.sort, limit, browse.least, after⟩ : GroupRequest)) = _
        rw [told]
        rfl
  have rows : (((groupsOf members).filter (having browse.least)).filter fun row =>
      cursor.all fun cursor => cursorClause browse.sort cursor row).mergeSort (groupBefore browse.sort) =
      (browse.listing members).after (cursor.map GroupCursor.rank) := by
    rw [groupListing_filter (filtered_apart members browse.least)]
    unfold Table.after
    refine List.filter_congr fun row _ => ?_
    cases cursor with
    | none => simp
    | some cursor =>
      rw [Bool.eq_iff_iff]
      simp [cursorClause_iff]
  have cut : (((browse.listing members).after (cursor.map GroupCursor.rank)).take (limit + 1)).take limit =
      ((browse.listing members).after (cursor.map GroupCursor.rank)).take limit := by
    rw [List.take_take, min_eq_left (Nat.le_succ limit)]
  have more : limit < (((browse.listing members).after (cursor.map GroupCursor.rank)).take (limit + 1)).length ↔
      limit < ((browse.listing members).after (cursor.map GroupCursor.rank)).length := by
    rw [List.length_take]
    omega
  unfold getPoolGroups getPoolGroupsFor GroupBrowse.page
  rw [request, ok_bind, demand_bind known]
  dsimp only
  rw [← groups, rows, cut, groupListing_length]
  simp only [more]
  rfl

theorem followGroups_rest {clock : Nat → Nat} (known : knownOrigin stockIssuers browse.origin)
    (still : ∀ sent, groupMembers tune store (clock sent) browse.origin = members)
    (short : ∀ row ∈ (browse.listing members).rows, row.token < 16 ^ 40) {requests sent : Nat} {after : Option Text}
    {cursor : Option GroupCursor} (read : after.map (decodeGroupCursor numbers) = cursor.map .ok)
    (enough : ((browse.listing members).after (cursor.map GroupCursor.rank)).length < requests) :
    ∃ more, followGroups numbers tune stockIssuers store clock browse requests sent after =
        .ok (some (browse.page numbers members cursor :: more)) ∧
      (browse.page numbers members cursor :: more).flatMap GroupsPage.groups =
        (browse.listing members).after (cursor.map GroupCursor.rank) := by
  induction requests generalizing sent after cursor with
  | zero => exact absurd enough (Nat.not_lt_zero _)
  | succ requests ih =>
    have answered : getPoolGroups numbers tune stockIssuers store (clock sent) (browse.params after) =
        .ok (browse.page numbers members cursor) := by
      rw [← still sent]
      exact getPoolGroups_page known read
    set limit := groupLimit browse.limit with bound
    set rest := (browse.listing members).after (cursor.map GroupCursor.rank) with left
    have shown : (browse.page numbers members cursor).groups = rest.take limit := rfl
    have next : (browse.page numbers members cursor).nextCursor =
        if limit < rest.length then (rest.take limit).getLast?.map fun row => encodeGroupCursor numbers row browse.sort else none := rfl
    by_cases room : limit < rest.length
    · have some : rest.take limit ≠ [] := by
        have positive : 1 ≤ limit := groupLimit_pos browse.limit
        intro empty
        have length := congrArg List.length empty
        rw [List.length_take, List.length_nil] at length
        omega
      obtain ⟨last, ends⟩ : ∃ last, (rest.take limit).getLast? = Option.some last := ⟨_, List.getLast?_eq_some_getLast some⟩
      have member : last ∈ (browse.listing members).rows :=
        (Table.mem_after.mp (List.mem_of_mem_take (List.mem_of_getLast? ends))).1
      have dropped : (browse.listing members).after (Option.some (last.rank browse.sort)) = rest.drop limit := Table.after_last ends
      have reads : (Option.some (encodeGroupCursor numbers last browse.sort)).map (decodeGroupCursor numbers) =
          (Option.some (⟨last.value browse.sort, last.token⟩ : GroupCursor)).map .ok :=
        congrArg Option.some (decode_encode (short last member))
      have fewer : ((browse.listing members).after
          ((Option.some (⟨last.value browse.sort, last.token⟩ : GroupCursor)).map GroupCursor.rank)).length < requests := by
        change ((browse.listing members).after (Option.some (last.rank browse.sort))).length < requests
        rw [dropped, List.length_drop]
        have positive : 1 ≤ limit := groupLimit_pos browse.limit
        omega
      obtain ⟨more, followed, lists⟩ := @ih (sent + 1) _ _ reads fewer
      refine ⟨browse.page numbers members (Option.some ⟨last.value browse.sort, last.token⟩) :: more, ?_, ?_⟩
      · unfold followGroups
        rw [answered, ok_bind, next, if_pos room, ends]
        dsimp only [Option.map_some]
        rw [followed]
        rfl
      · rw [List.flatMap_cons, lists, shown]
        change rest.take limit ++ (browse.listing members).after (Option.some (last.rank browse.sort)) = rest
        rw [dropped, List.take_append_drop]
    · refine ⟨[], ?_, ?_⟩
      · unfold followGroups
        rw [answered, ok_bind, next, if_neg room]
        rfl
      · rw [List.flatMap_singleton, shown, List.take_of_length_le (not_lt.mp room)]

end LpTerminal.Api
