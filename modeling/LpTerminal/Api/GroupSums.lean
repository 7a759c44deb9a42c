import LpTerminal.Api.PoolGroups

/-!
What the figures of a listed group are the sums of, and a whole traversal of the groups.
-/

namespace LpTerminal.Api

open Catalog

variable {tune : Tune} {store : GroupStore} {now : Nat} {origin : Origin}

def poolsOf (tune : Tune) (store : GroupStore) (token : Address) : List Pool :=
  store.pools.rows.filter fun pool => (pool.token0 = token || pool.token1 = token) && v23ProtocolFilter tune pool

def v4PoolsOf (store : GroupStore) (token : Address) : List V4Pool :=
  store.v4Pools.rows.filter fun pool => pool.currency0 = token || pool.currency1 = token

def membersOf (tune : Tune) (store : GroupStore) (now : Nat) (token : Address) : List Member :=
  (poolsOf tune store token).map (v23Member tune store now fun _ => token) ++
    (v4PoolsOf store token).map (v4Member tune store now fun _ => token)

theorem flatMap_own {α β : Type*} [DecidableEq α] {xs : List α} {x : α} {f : α → List β} (apart : xs.Nodup) (member : x ∈ xs) :
    (xs.flatMap fun y => if y = x then f y else []) = f x := by
  induction xs with
  | nil => cases member
  | cons first rest ih =>
    obtain ⟨absent, apart⟩ := List.nodup_cons.mp apart
    rw [List.flatMap_cons]
    rcases List.mem_cons.mp member with rfl | later
    · have others : (rest.flatMap fun y => if y = x then f y else []) = [] := by
        apply List.flatMap_eq_nil_iff.mpr
        intro y inside
        have different : y ≠ x := by
          rintro rfl
          exact absent inside
        exact if_neg different
      rw [if_pos rfl, others, List.append_nil]
    · have different : first ≠ x := by
        rintro rfl
        exact absent later
      rw [if_neg different, List.nil_append, ih apart later]

theorem filter_or_perm {α : Type*} {xs : List α} {p q : α → Bool} (apart : ∀ x ∈ xs, p x = true → q x = false) :
    (xs.filter p ++ xs.filter q).Perm (xs.filter fun x => p x || q x) := by
  induction xs with
  | nil => exact List.Perm.refl _
  | cons x rest ih =>
    have tail := ih fun y member => apart y (List.mem_cons_of_mem x member)
    cases first : p x with
    | true =>
      have second := apart x List.mem_cons_self first
      simpa [List.filter_cons, first, second] using tail
    | false =>
      cases second : q x with
      | true => simpa [List.filter_cons, first, second] using List.perm_middle.trans (tail.cons x)
      | false => simpa [List.filter_cons, first, second] using tail

variable {token : Address}

theorem branch_filter {ρ : Type*} {proven : List Address} {rows : List ρ} {select : Address → ρ → Bool} {make : ρ → Member}
    (named : ∀ address row, select address row = true → (make row).token = address) (apart : proven.Nodup)
    (listed : token ∈ proven) :
    ((proven.flatMap fun address => (rows.filter (select address)).map make).filter fun member => member.token = token) =
      (rows.filter (select token)).map make := by
  have each : ∀ address, (((rows.filter (select address)).map make).filter fun member => member.token = token) =
      if address = token then (rows.filter (select address)).map make else [] := by
    intro address
    split
    · rename_i same
      apply List.filter_eq_self.mpr
      intro member inside
      obtain ⟨row, selected, rfl⟩ := List.mem_map.mp inside
      exact decide_eq_true ((named address row (List.mem_filter.mp selected).2).trans same)
    · rename_i different
      apply List.filter_eq_nil_iff.mpr
      intro member inside
      obtain ⟨row, selected, rfl⟩ := List.mem_map.mp inside
      rw [named address row (List.mem_filter.mp selected).2]
      simpa using different
  rw [List.filter_flatMap]
  simp only [each]
  exact flatMap_own apart listed

theorem originTokens_apart : (originTokens store origin).Nodup := by
  cases origin with
  | launchpad => exact store.v4LaunchpadTokens.sorted.imp fun before => before.ne
  | stock issuer =>
    have sorted := store.stockTokens.sorted.filter fun row => decide (row.issuer = some issuer)
    exact List.pairwise_map.mpr (sorted.imp fun before => before.ne)

theorem originTokens_short (proven : token ∈ originTokens store origin) : token < 16 ^ 40 := by
  cases origin with
  | launchpad => exact store.launchpadBytes token proven
  | stock issuer =>
    obtain ⟨row, listed, rfl⟩ := List.mem_map.mp proven
    exact store.stockBytes row (List.mem_of_mem_filter listed)

theorem members_perm (proven : token ∈ originTokens store origin) :
    ((groupMembers tune store now origin).filter fun member => member.token = token).Perm (membersOf tune store now token) := by
  have v23 : ∀ side : Pool → Address, (((originTokens store origin).flatMap fun address =>
      (store.pools.rows.filter fun pool => side pool = address && v23ProtocolFilter tune pool).map
        (v23Member tune store now side)).filter fun member => member.token = token) =
      (store.pools.rows.filter fun pool => side pool = token && v23ProtocolFilter tune pool).map
        (v23Member tune store now fun _ => token) := by
    intro side
    rw [branch_filter _ originTokens_apart proven]
    · refine List.map_congr_left fun pool member => ?_
      have own : side pool = token := by
        have selected := (List.mem_filter.mp member).2
        simp only [Bool.and_eq_true, decide_eq_true_eq] at selected
        exact selected.1
      unfold v23Member
      rw [own]
    · intro address pool selected
      simp only [Bool.and_eq_true, decide_eq_true_eq] at selected
      exact selected.1
  have v4 : ∀ side : V4Pool → Address, (((originTokens store origin).flatMap fun address =>
      (store.v4Pools.rows.filter fun pool => side pool = address).map
        (v4Member tune store now side)).filter fun member => member.token = token) =
      (store.v4Pools.rows.filter fun pool => side pool = token).map (v4Member tune store now fun _ => token) := by
    intro side
    rw [branch_filter _ originTokens_apart proven]
    · refine List.map_congr_left fun pool member => ?_
      have own : side pool = token := of_decide_eq_true (List.mem_filter.mp member).2
      unfold v4Member
      rw [own]
    · exact fun address pool selected => of_decide_eq_true selected
  unfold groupMembers
  dsimp only
  rw [List.filter_append, List.filter_append, List.filter_append, v23, v23, v4, v4, ← List.map_append, List.append_assoc,
    ← List.map_append]
  refine List.Perm.append (List.Perm.map _ ?_) (List.Perm.map _ ?_)
  · have sides : ∀ pool ∈ store.pools.rows, (decide (pool.token0 = token) && v23ProtocolFilter tune pool) = true →
        (decide (pool.token1 = token) && v23ProtocolFilter tune pool) = false := by
      intro pool member first
      simp only [Bool.and_eq_true, decide_eq_true_eq] at first
      have second : pool.token1 ≠ token := fun same => store.sides pool member (first.1.trans same.symm)
      simp [second]
    refine (filter_or_perm sides).trans (List.Perm.of_eq ?_)
    refine List.filter_congr fun pool _ => ?_
    exact (Bool.and_or_distrib_right _ _ _).symm
  · apply filter_or_perm
    intro pool member first
    have second : pool.currency1 ≠ token := fun same => store.v4Sides pool member ((of_decide_eq_true first).trans same.symm)
    exact decide_eq_false second

theorem groupMembers_proven {member : Member} (inside : member ∈ groupMembers tune store now origin) :
    member.token ∈ originTokens store origin := by
  unfold groupMembers at inside
  simp only [List.mem_append, List.mem_flatMap, List.mem_map, List.mem_filter, Bool.and_eq_true, decide_eq_true_eq] at inside
  rcases inside with ((⟨address, proven, pool, ⟨-, same, -⟩, rfl⟩ | ⟨address, proven, pool, ⟨-, same, -⟩, rfl⟩) |
    ⟨address, proven, pool, ⟨-, same⟩, rfl⟩) | ⟨address, proven, pool, ⟨-, same⟩, rfl⟩
  · rw [← same] at proven
    exact proven
  · rw [← same] at proven
    exact proven
  · rw [← same] at proven
    exact proven
  · rw [← same] at proven
    exact proven

theorem sumOf_perm {xs ys : List (Option ℚ)} (perm : xs.Perm ys) : sumOf xs = sumOf ys := by
  have values : xs.reduceOption.Perm ys.reduceOption := perm.filterMap id
  unfold sumOf
  rw [values.sum_eq]
  by_cases nothing : ys.reduceOption = []
  · rw [if_pos nothing, if_pos (List.Perm.eq_nil (nothing ▸ values))]
  · have some : xs.reduceOption ≠ [] := by
      intro empty
      rw [empty] at values
      exact nothing (List.Perm.nil_eq values).symm
    rw [if_neg nothing, if_neg some]

theorem aggregate_perm {xs ys : List Member} (perm : xs.Perm ys) : aggregate token xs = aggregate token ys := by
  unfold aggregate
  rw [sumOf_perm (perm.map _), sumOf_perm (perm.map Member.vol24hUsd), sumOf_perm (perm.map Member.fee), perm.length_eq,
    perm.countP_eq]

theorem mem_groups {row : GroupRow} :
    row ∈ groupsOf (groupMembers tune store now origin) ↔ ∃ token ∈ originTokens store origin,
      membersOf tune store now token ≠ [] ∧ row = aggregate token (membersOf tune store now token) := by
  rw [mem_groupsOf]
  constructor
  · rintro ⟨token, tokens, rfl⟩
    obtain ⟨member, inside, rfl⟩ := List.mem_map.mp tokens
    have perm : ((groupMembers tune store now origin).filter fun other => other.token = member.token).Perm
        (membersOf tune store now member.token) := members_perm (groupMembers_proven inside)
    refine ⟨member.token, groupMembers_proven inside, ?_, aggregate_perm perm⟩
    exact List.ne_nil_of_mem (perm.subset (List.mem_filter.mpr ⟨inside, decide_eq_true rfl⟩))
  · rintro ⟨token, proven, some, rfl⟩
    have perm : ((groupMembers tune store now origin).filter fun member => member.token = token).Perm
        (membersOf tune store now token) := members_perm proven
    refine ⟨token, ?_, (aggregate_perm perm).symm⟩
    obtain ⟨member, inside⟩ := List.exists_mem_of_ne_nil _ some
    obtain ⟨inside, own⟩ := List.mem_filter.mp (perm.symm.subset inside)
    exact List.mem_map.mpr ⟨member, inside, of_decide_eq_true own⟩

structure GroupsListed (tune : Tune) (store : GroupStore) (now : Nat) (browse : GroupBrowse) (pages : List GroupsPage) : Prop where
  /-- The tokens with a pool, above the minimum where there is one, each with the sums over all its pools. -/
  groups : ∀ row, row ∈ pages.flatMap GroupsPage.groups ↔ ∃ token ∈ originTokens store browse.origin,
    membersOf tune store now token ≠ [] ∧ row = aggregate token (membersOf tune store now token) ∧
    ∀ least ∈ browse.minTvl, 0 < least → ∃ tvl, row.tvlUsd = some tvl ∧ least ≤ tvl
  once : ((pages.flatMap GroupsPage.groups).map GroupRow.token).Nodup
  ordered : (pages.flatMap GroupsPage.groups).Pairwise fun first second =>
    match first.value browse.sort, second.value browse.sort with
    | some a, some b => b < a ∨ b = a ∧ first.token < second.token
    | some _, none => True
    | none, some _ => False
    | none, none => first.token < second.token
  count : (pages.head?.bind GroupsPage.count) = some (pages.flatMap GroupsPage.groups).length
  fees : ∀ token, ∀ pool ∈ v4PoolsOf store token, (v4Member tune store now (fun _ => token) pool).fee.isSome →
    pool.keyFeePpm ≠ some DYNAMIC_FEE_FLAG ∧ pool.hooks = HOOKLESS

theorem v4Member_fee {token : V4Pool → Address} {pool : V4Pool} (stated : (v4Member tune store now token pool).fee.isSome) :
    pool.keyFeePpm ≠ some DYNAMIC_FEE_FLAG ∧ pool.hooks = HOOKLESS := by
  unfold Member.fee at stated
  split at stated
  · rename_i usable
    simpa [v4Member] using usable
  · cases stated

theorem having_least {browse : GroupBrowse} {row : GroupRow} :
    having browse.least row = true ↔ ∀ least ∈ browse.minTvl, 0 < least → ∃ tvl, row.tvlUsd = some tvl ∧ least ≤ tvl := by
  unfold having GroupBrowse.least
  cases browse.minTvl with
  | none => simp
  | some least =>
    by_cases positive : 0 < least
    · cases row.tvlUsd <;> simp [Option.filter, positive]
    · simp [Option.filter, positive]

/-- While no measured value changes, a client that follows the cursor to its end is shown the whole listing. -/
theorem groups_listed (numbers : NumberText) (tune : Tune) (stockIssuers : List Issuer) (store : GroupStore) (browse : GroupBrowse)
    (known : knownOrigin stockIssuers browse.origin) (clock : Nat → Nat)
    (still : ∀ sent, groupMembers tune store (clock sent) browse.origin = groupMembers tune store (clock 0) browse.origin)
    (requests : Nat) (enough : (originTokens store browse.origin).length < requests) :
    ∃ pages, followGroups numbers tune stockIssuers store clock browse requests 0 none = .ok (some pages) ∧
      GroupsListed tune store (clock 0) browse pages := by
  set members := groupMembers tune store (clock 0) browse.origin with now
  have member : ∀ row, row ∈ (browse.listing members).rows ↔ ∃ token ∈ originTokens store browse.origin,
      membersOf tune store (clock 0) token ≠ [] ∧ row = aggregate token (membersOf tune store (clock 0) token) ∧
      ∀ least ∈ browse.minTvl, 0 < least → ∃ tvl, row.tvlUsd = some tvl ∧ least ≤ tvl := by
    intro row
    rw [mem_groupListing, now, mem_groups, having_least]
    constructor
    · rintro ⟨⟨token, proven, some, sums⟩, above⟩
      exact ⟨token, proven, some, sums, above⟩
    · rintro ⟨token, proven, some, sums, above⟩
      exact ⟨⟨token, proven, some, sums⟩, above⟩
  have tokens : ∀ row ∈ (browse.listing members).rows, row.token ∈ originTokens store browse.origin := by
    intro row inside
    obtain ⟨token, proven, -, rfl, -⟩ := (member row).mp inside
    exact proven
  have once : ((browse.listing members).rows.map GroupRow.token).Nodup := by
    refine List.pairwise_map.mpr ((browse.listing members).sorted.imp_of_mem fun {first second} here there before same => ?_)
    have equal : first = second := by
      obtain ⟨token, -, -, sums, -⟩ := (member first).mp here
      obtain ⟨token', -, -, sums', -⟩ := (member second).mp there
      have named : token = token' := by
        rw [sums, sums'] at same
        exact same
      rw [sums, sums', named]
    exact before.ne (by rw [equal])
  have few : (browse.listing members).rows.length ≤ (originTokens store browse.origin).length := by
    rw [← List.length_map GroupRow.token]
    have inside : (browse.listing members).rows.map GroupRow.token ⊆ originTokens store browse.origin := by
      intro token named
      obtain ⟨row, listed, rfl⟩ := List.mem_map.mp named
      exact tokens row listed
    exact (List.subperm_of_subset once inside).length_le
  have first : (none : Option Text).map (decodeGroupCursor numbers) = (none : Option GroupCursor).map .ok := rfl
  have room : ((browse.listing members).after ((none : Option GroupCursor).map GroupCursor.rank)).length < requests := by
    rw [Option.map_none, Table.after_none]
    omega
  obtain ⟨more, followed, lists⟩ := followGroups_rest known still (fun row inside => originTokens_short (tokens row inside))
    first room
  rw [Option.map_none, Table.after_none] at lists
  refine ⟨_, followed, ?_, ?_, ?_, ?_, fun token pool _ => v4Member_fee⟩
  · rw [lists]
    exact member
  · rw [lists]
    exact once
  · rw [lists]
    refine (browse.listing members).sorted.imp fun {first second} before => ?_
    have order := rankOf_lt.mp before
    cases a : first.value browse.sort <;> cases b : second.value browse.sort <;> simp [a, b] at order ⊢ <;> exact order
  · rw [lists]
    rfl

def wholeNumbers : NumberText where
  print value :=
    if 0 ≤ value ∧ value.den = 1 then Nat.toDigits 10 value.num.toNat else '~' :: Nat.toDigits 10 (Encodable.encode value)
  parse
    | '~' :: digits => Encodable.decode (Nat.ofDigitChars 10 digits 0)
    | digits => some (Nat.ofDigitChars 10 digits 0 : ℚ)
  parse_print value := by
    have read : ∀ n, Nat.ofDigitChars 10 (Nat.toDigits 10 n) 0 = n := fun n => Nat.ofDigitChars_toDigits (by decide) (by decide)
    by_cases whole : 0 ≤ value ∧ value.den = 1
    · have unmarked : ∀ digits, Nat.toDigits 10 value.num.toNat ≠ '~' :: digits := by
        intro digits marked
        have member : '~' ∈ Nat.toDigits 10 value.num.toNat := by
          rw [marked]
          exact List.mem_cons_self
        cases Nat.isDigit_of_mem_toDigits (by decide) (by decide) member
      have number : ((value.num.toNat : ℕ) : ℚ) = value := by
        have same : ((value.num.toNat : ℕ) : ℤ) = value.num := Int.toNat_of_nonneg (Rat.num_nonneg.mpr whole.1)
        rw [← Int.cast_natCast, same]
        exact Rat.den_eq_one_iff value |>.mp whole.2
      rw [if_pos whole]
      split
      · rename_i digits marked
        exact absurd marked (unmarked digits)
      · rw [read, number]
    · rw [if_neg whole]
      change Encodable.decode (Nat.ofDigitChars 10 (Nat.toDigits 10 (Encodable.encode value)) 0) = some value
      rw [read, Encodable.encodek]
  print_some value := by
    split
    · exact Nat.toDigits_ne_nil
    · exact List.cons_ne_nil _ _
  print_measured value := by
    split
    · intro minus
      have member : '-' ∈ Nat.toDigits 10 value.num.toNat := by
        rw [minus]
        exact List.mem_cons_self
      cases Nat.isDigit_of_mem_toDigits (by decide) (by decide) member
    · intro minus
      cases minus

def twoGroups : GroupStore where
  pools := ⟨[], List.Pairwise.nil⟩
  v4Pools := ⟨[⟨21, 9, 0, 1, some 3000, 60, 0, none, none⟩, ⟨22, 9, 0, 2, some DYNAMIC_FEE_FLAG, 60, 7, none, none⟩], by decide⟩
  poolState := ⟨[], List.Pairwise.nil⟩
  poolStats := ⟨[], List.Pairwise.nil⟩
  v4MarketStats := ⟨[⟨22, some 40, none, some 5, some 100⟩], List.pairwise_singleton _ _⟩
  v4LaunchpadTokens := ⟨[1, 2], by decide⟩
  stockTokens := ⟨[], List.Pairwise.nil⟩
  sides := by decide
  v4Sides := by decide
  launchpadBytes := by decide
  stockBytes := by decide

theorem groups_listed_two :
    ∃ pages, followGroups wholeNumbers ⟨true, 1000000, 100, 3600⟩ [] twoGroups (fun _ => 200) ⟨.launchpad, .tvl, some 1, none⟩ 3 0 none =
      .ok (some pages) ∧ GroupsListed ⟨true, 1000000, 100, 3600⟩ twoGroups 200 ⟨.launchpad, .tvl, some 1, none⟩ pages :=
  groups_listed wholeNumbers ⟨true, 1000000, 100, 3600⟩ [] twoGroups ⟨.launchpad, .tvl, some 1, none⟩ trivial (fun _ => 200)
    (fun _ => rfl) 3 (by decide)

end LpTerminal.Api
