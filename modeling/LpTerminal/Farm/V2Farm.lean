import LpTerminal.Lib.Trace
import Mathlib.Data.Finset.Insert
import Mathlib.Data.Finset.Erase
import Mathlib.Order.Nat

/-!
The v2 positions that a wallet has staked into a farm: the map from pids to pairs, the pids that the wallet is known to hold,
and the five multicalls that a refresh reads.
-/

namespace LpTerminal.V2Farm

open Trace

abbrev PairAddress := ℕ

structure V2FarmPool where
  pid : ℕ
  address : PairAddress
  token0 : PairAddress
  token1 : PairAddress

/-- Of the multicalls of one call. A `none` is a multicall that throws, a `none` inside an entry that fails. -/
structure Replies where
  now : ℤ
  poolLength : Option (Option ℕ)
  lpToken : Option (ℕ → Option PairAddress)
  pairTokens : Option (ℕ → Option PairAddress × Option PairAddress)
  userInfo : Option (ℕ → Option ℕ)
  /-- The reserves and the supply of the pair of a pid. -/
  details : Option (ℕ → Option (ℕ × ℕ) × Option ℕ)
  metadata : Bool

structure FarmUserCache where
  reconciledAt : ℤ
  pids : Finset ℕ

structure FarmCaches where
  pools : Option (ℤ × List V2FarmPool)
  user : Option FarmUserCache

structure V2Position where
  pool : V2FarmPool
  stakedLp : ℕ
  amount0 : ℕ
  amount1 : ℕ

inductive Answer
  | threw
  | listed (v2 : List V2Position)

def FARM_POOLS_TTL : ℤ := 30 * 60 * 1000

def FARM_USER_RECONCILE : ℤ := 30 * 60 * 1000

def sortTokens (a b : PairAddress) : PairAddress × PairAddress := if a < b then (a, b) else (b, a)

variable (isVenuePair : PairAddress → PairAddress → PairAddress → Bool)

def farmPool (tokens : Option PairAddress × Option PairAddress) (pid : ℕ) (address : PairAddress) : Option V2FarmPool := do
  let (token0, token1) := sortTokens (← tokens.1) (← tokens.2)
  if isVenuePair address token0 token1 then some ⟨pid, address, token0, token1⟩ else none

/-- A multicall without contracts does not throw. -/
def loadFarmPools (r : Replies) : Option (List V2FarmPool) := do
  let count := (← r.poolLength).getD 0
  if count = 0 then return []
  let lpToken ← r.lpToken
  let known := (List.range count).filterMap fun pid => (lpToken pid).map (pid, ·)
  if known.isEmpty then return []
  let pairTokens ← r.pairTokens
  return known.filterMap fun (pid, address) => farmPool isVenuePair (pairTokens pid) pid address

def FarmCaches.fresh (s : FarmCaches) (now : ℤ) : Bool := s.pools.any fun cached => now - cached.1 < FARM_POOLS_TTL

def farmPools (s : FarmCaches) (r : Replies) : Option (ℤ × List V2FarmPool) :=
  if s.fresh r.now then s.pools else (loadFarmPools isVenuePair r).map (r.now, ·)

section
variable (user : Option FarmUserCache) (now : ℤ)

def reconcileAll : Bool := user.all fun cached => FARM_USER_RECONCILE ≤ now - cached.reconciledAt

/-- The pools whose `userInfo` is read. -/
def scanPools (pools : List V2FarmPool) : List V2FarmPool :=
  if reconcileAll user now then pools else pools.filter fun pool => user.any (pool.pid ∈ ·.pids)

def nextPids (stake : ℕ → Option ℕ) (pids : Finset ℕ) (scanned : List V2FarmPool) : Finset ℕ :=
  scanned.foldl (fun pids pool => match stake pool.pid with
    | none => pids
    | some amount => if 0 < amount then insert pool.pid pids else pids.erase pool.pid) pids

def nextUser (scanned : List V2FarmPool) (stake : ℕ → Option ℕ) : Option FarmUserCache :=
  let pids := nextPids stake (if reconcileAll user now then ∅ else (user.map FarmUserCache.pids).getD ∅) scanned
  if scanned.all fun pool => (stake pool.pid).isSome then
    some ⟨if reconcileAll user now then now else (user.map FarmUserCache.reconciledAt).getD now, pids⟩
  else user.map ({ · with pids := pids })

/-- A pid that is known, and that could not be read. -/
def unread (scanned : List V2FarmPool) (stake : ℕ → Option ℕ) : Bool :=
  scanned.any fun pool => user.any (pool.pid ∈ ·.pids) && (stake pool.pid).isNone

end

def position (details : ℕ → Option (ℕ × ℕ) × Option ℕ) (pool : V2FarmPool) (stakedLp : ℕ) : Option V2Position := do
  let reserves ← (details pool.pid).1
  let totalSupply := (details pool.pid).2.getD 0
  if totalSupply = 0 then none
  else some ⟨pool, stakedLp, stakedLp * reserves.1 / totalSupply, stakedLp * reserves.2 / totalSupply⟩

def heldOf (stake : ℕ → Option ℕ) (scanned : List V2FarmPool) : List (V2FarmPool × ℕ) :=
  (scanned.map fun pool => (pool, (stake pool.pid).getD 0)).filter fun held => 0 < held.2

/-- From the reads of the stakes on. -/
def listHeld (r : Replies) (held : List (V2FarmPool × ℕ)) : Answer :=
  if held.isEmpty then .listed []
  else match r.details with
    | none => .threw
    | some details =>
      let v2 := held.filterMap fun (pool, stakedLp) => position details pool stakedLp
      if v2.isEmpty || r.metadata then .listed v2 else .threw

def fetchV2FarmPositions (s : FarmCaches) (r : Replies) : FarmCaches × Answer :=
  match farmPools isVenuePair s r with
  | none => (⟨none, s.user⟩, .threw)
  | some cached =>
    let scanned := scanPools s.user r.now cached.2
    if scanned.isEmpty then (⟨some cached, s.user⟩, .listed [])
    else match r.userInfo with
      | none => (⟨some cached, s.user⟩, .threw)
      | some stake =>
        if unread s.user scanned stake then (⟨some cached, s.user⟩, .threw)
        else (⟨some cached, nextUser s.user r.now scanned stake⟩, listHeld r (heldOf stake scanned))

/-- The caches, and the last stake that was read of each pid; zero where none was. -/
structure Watched where
  caches : FarmCaches
  last : ℕ → ℕ
  clock : ℤ

def pidsOf (pools : List V2FarmPool) : List ℕ := pools.map V2FarmPool.pid

def reads (s : FarmCaches) (r : Replies) (pid : ℕ) : Option ℕ := do
  let cached ← farmPools isVenuePair s r
  let stake ← r.userInfo
  if pid ∈ pidsOf (scanPools s.user r.now cached.2) then stake pid else none

def Watched.call (w : Watched) (r : Replies) : Watched where
  caches := (fetchV2FarmPositions isVenuePair w.caches r).1
  last pid := (reads isVenuePair w.caches r pid).getD (w.last pid)
  clock := r.now

/-- No caches, no reads. -/
def Watched.fresh (clock : ℤ) : Watched := ⟨⟨none, none⟩, fun _ => 0, clock⟩

def Answer.Lists (answer : Answer) (pid stakedLp : ℕ) : Prop :=
  ∃ v2, answer = .listed v2 ∧ ∃ position ∈ v2, position.pool.pid = pid ∧ position.stakedLp = stakedLp

def Watched.answer (w : Watched) (r : Replies) : Answer := (fetchV2FarmPositions isVenuePair w.caches r).2

/-- A call throws, or lists every position whose last stake was not zero. -/
def Watched.Keeps (w : Watched) (r : Replies) : Prop :=
  ∀ pid, 0 < (w.call isVenuePair r).last pid →
    w.answer isVenuePair r = .threw ∨ (w.answer isVenuePair r).Lists pid ((w.call isVenuePair r).last pid)

/-- The entries of a pid in the three multicalls of the map answer, with a pair of the venue. -/
structure Mapped (r : Replies) (pid : ℕ) : Prop where
  counted : ∀ reply ∈ r.poolLength, ∃ count, reply = some count ∧ pid < count
  paired : ∀ lpToken ∈ r.lpToken, ∃ address, lpToken pid = some address ∧
    ∀ pairTokens ∈ r.pairTokens, (farmPool isVenuePair (pairTokens pid) pid address).isSome

def Detailed (r : Replies) (pid : ℕ) : Prop :=
  ∀ details ∈ r.details, ∃ reserves supply, details pid = (some reserves, some supply) ∧ supply ≠ 0

/-- What has to answer: of the map where it is loaded, of a stake whose pid is not in the cache, and of the pairs. -/
structure Watched.Answered (w : Watched) (r : Replies) : Prop where
  ordered : w.clock ≤ r.now
  mapped : w.caches.fresh r.now = false → ∀ pid, 0 < w.last pid → Mapped isVenuePair r pid
  proved : ∀ stake ∈ r.userInfo, ∀ pid, 0 < w.last pid → (∀ cached ∈ w.caches.user, pid ∉ cached.pids) → stake pid ≠ none
  detailed : ∀ pid, 0 < (w.call isVenuePair r).last pid → Detailed r pid

/-- All reads succeed, and the farm holds a deposit of this pid. -/
structure Standing (r : Replies) (pid : ℕ) : Prop where
  mapped : Mapped isVenuePair r pid
  loaded : (loadFarmPools isVenuePair r).isSome
  staked : ∃ stake, r.userInfo = some stake ∧ (∀ other, stake other ≠ none) ∧ ∃ amount, stake pid = some amount ∧ 0 < amount
  detailed : Detailed r pid
  read : r.details.isSome ∧ r.metadata

variable {isVenuePair} {s : FarmCaches} {w : Watched} {r : Replies} {user : Option FarmUserCache} {now : ℤ} {pid amount : ℕ}
  {pools scanned : List V2FarmPool} {cached : ℤ × List V2FarmPool} {stake : ℕ → Option ℕ}

theorem loaded_mem (mapped : Mapped isVenuePair r pid) (loaded : loadFarmPools isVenuePair r = some pools) : pid ∈ pidsOf pools := by
  unfold loadFarmPools at loaded
  obtain ⟨reply, counted, loaded⟩ := Option.bind_eq_some_iff.mp loaded
  obtain ⟨count, rfl, less⟩ := mapped.counted reply counted
  rw [if_neg (by simp; omega)] at loaded
  obtain ⟨lpToken, answered, loaded⟩ := Option.bind_eq_some_iff.mp loaded
  obtain ⟨address, here, paired⟩ := mapped.paired lpToken answered
  have known : (pid, address) ∈ (List.range count).filterMap fun pid => (lpToken pid).map (pid, ·) :=
    List.mem_filterMap.mpr ⟨pid, List.mem_range.mpr less, by simp [here]⟩
  rw [Option.getD_some, if_neg (by simpa using List.ne_nil_of_mem known)] at loaded
  obtain ⟨pairTokens, tokens, loaded⟩ := Option.bind_eq_some_iff.mp loaded
  obtain ⟨pool, pair⟩ := Option.isSome_iff_exists.mp (paired pairTokens tokens)
  obtain rfl := Option.some.inj loaded
  refine List.mem_map.mpr ⟨pool, List.mem_filterMap.mpr ⟨_, known, pair⟩, ?_⟩
  obtain ⟨token0, _, pair⟩ := Option.bind_eq_some_iff.mp pair
  obtain ⟨token1, _, pair⟩ := Option.bind_eq_some_iff.mp pair
  obtain ⟨_, same⟩ := Option.ite_none_right_eq_some.mp pair
  obtain rfl := Option.some.inj same
  rfl

theorem mem_scanned : pid ∈ pidsOf (scanPools user now pools) ↔
    pid ∈ pidsOf pools ∧ ∀ cached ∈ user, FARM_USER_RECONCILE ≤ now - cached.reconciledAt ∨ pid ∈ cached.pids := by
  unfold scanPools reconcileAll pidsOf
  cases user with
  | none => simp
  | some cached =>
    by_cases due : FARM_USER_RECONCILE ≤ now - cached.reconciledAt
    · simp [due]
    · simp only [Option.all_some, due, decide_false, Bool.false_eq_true, if_false, Option.any_some, List.mem_map, List.mem_filter,
        decide_eq_true_eq, Option.mem_some_iff, forall_eq', false_or]
      exact ⟨fun ⟨pool, ⟨member, known⟩, same⟩ => ⟨⟨pool, member, same⟩, same ▸ known⟩,
        fun ⟨⟨pool, member, same⟩, known⟩ => ⟨pool, ⟨member, same ▸ known⟩, same⟩⟩

theorem mem_nextPids (read : stake pid = some amount) (positive : 0 < amount) {pids : Finset ℕ}
    (either : pid ∈ pids ∨ pid ∈ pidsOf scanned) : pid ∈ nextPids stake pids scanned := by
  induction scanned generalizing pids with
  | nil => exact either.resolve_right (List.not_mem_nil)
  | cons pool rest ih =>
    refine ih ?_
    by_cases same : pool.pid = pid
    · simp [same, read, positive]
    · refine either.imp (fun old => ?_) fun later => (List.mem_cons.mp later).resolve_left (Ne.symm same)
      dsimp only
      split
      · exact old
      · split
        · exact Finset.mem_insert_of_mem old
        · exact Finset.mem_erase.mpr ⟨Ne.symm same, old⟩

/-- A stamp is the time of a walk over the whole farm, or the one before. -/
theorem nextUser_eq {next : FarmUserCache} (inside : next ∈ nextUser user now scanned stake) :
    next.pids = nextPids stake (if reconcileAll user now then ∅ else (user.map FarmUserCache.pids).getD ∅) scanned ∧
      ((next.reconciledAt = now ∧ reconcileAll user now) ∨ ∃ cached ∈ user, next.reconciledAt = cached.reconciledAt) := by
  unfold nextUser at inside
  by_cases all : scanned.all fun pool => (stake pool.pid).isSome
  · rw [if_pos all] at inside
    obtain rfl := Option.some.inj inside
    refine ⟨rfl, ?_⟩
    by_cases due : reconcileAll user now
    · exact .inl ⟨if_pos due, due⟩
    · cases user with
      | none => exact absurd rfl due
      | some cached => exact .inr ⟨cached, rfl, if_neg due⟩
  · rw [if_neg all] at inside
    obtain ⟨cached, same, rfl⟩ := Option.map_eq_some_iff.mp inside
    exact ⟨rfl, .inr ⟨cached, same, rfl⟩⟩

theorem mem_nextUser (read : stake pid = some amount) (positive : 0 < amount) {next : FarmUserCache}
    (inside : next ∈ nextUser user now scanned stake)
    (either : (reconcileAll user now = false ∧ ∃ cached ∈ user, pid ∈ cached.pids) ∨ pid ∈ pidsOf scanned) : pid ∈ next.pids := by
  rw [(nextUser_eq inside).1]
  refine mem_nextPids read positive (either.imp_left ?_)
  rintro ⟨recent, cached, rfl, old⟩
  simpa [recent] using old

theorem listed_of_scanned (inside : pid ∈ pidsOf scanned) (read : stake pid = some amount) (positive : 0 < amount)
    (detailed : Detailed r pid) : listHeld r (heldOf stake scanned) = .threw ∨ (listHeld r (heldOf stake scanned)).Lists pid amount := by
  obtain ⟨pool, member, rfl⟩ := List.mem_map.mp inside
  have held : (pool, amount) ∈ heldOf stake scanned :=
    List.mem_filter.mpr ⟨List.mem_map.mpr ⟨pool, member, by rw [read]; rfl⟩, by simpa using positive⟩
  unfold listHeld
  rw [if_neg (by simpa using List.ne_nil_of_mem held)]
  cases answered : r.details with
  | none => exact .inl rfl
  | some details =>
    obtain ⟨reserves, supply, entry, some_supply⟩ := detailed details answered
    dsimp only
    split
    · refine .inr ⟨_, rfl, ⟨pool, amount, amount * reserves.1 / supply, amount * reserves.2 / supply⟩, ?_, rfl, rfl⟩
      exact List.mem_filterMap.mpr ⟨_, held, by simp [position, entry, some_supply]⟩
    · exact .inl rfl

theorem fetch_pools : (fetchV2FarmPositions isVenuePair s r).1.pools = farmPools isVenuePair s r := by
  unfold fetchV2FarmPositions
  cases farmPools isVenuePair s r with
  | none => rfl
  | some cached =>
    dsimp only
    split
    · rfl
    · cases r.userInfo with
      | none => rfl
      | some stake => dsimp only; split <;> rfl

/-- What a call can do to the pids of the wallet. -/
theorem fetch_cases (isVenuePair : PairAddress → PairAddress → PairAddress → Bool) (s : FarmCaches) (r : Replies) :
    ((fetchV2FarmPositions isVenuePair s r).1.user = s.user ∧ ((fetchV2FarmPositions isVenuePair s r).2 = .threw ∨
      ∃ cached, farmPools isVenuePair s r = some cached ∧ scanPools s.user r.now cached.2 = [])) ∨
    ∃ cached stake, farmPools isVenuePair s r = some cached ∧ r.userInfo = some stake ∧
      unread s.user (scanPools s.user r.now cached.2) stake = false ∧
      (fetchV2FarmPositions isVenuePair s r).1.user = nextUser s.user r.now (scanPools s.user r.now cached.2) stake ∧
      (fetchV2FarmPositions isVenuePair s r).2 = listHeld r (heldOf stake (scanPools s.user r.now cached.2)) := by
  unfold fetchV2FarmPositions
  cases farmPools isVenuePair s r with
  | none => exact .inl ⟨rfl, .inl rfl⟩
  | some cached =>
    dsimp only
    split
    · rename_i none_scanned
      exact .inl ⟨rfl, .inr ⟨cached, rfl, List.isEmpty_iff.mp none_scanned⟩⟩
    · cases r.userInfo with
      | none => exact .inl ⟨rfl, .inl rfl⟩
      | some stake =>
        dsimp only
        split
        · exact .inl ⟨rfl, .inl rfl⟩
        · rename_i known
          exact .inr ⟨cached, stake, rfl, rfl, Bool.eq_false_of_not_eq_true known, rfl, rfl⟩

/-- What the caches know of the stakes that were read. -/
structure Watched.Knows (w : Watched) : Prop where
  mapped : ∀ cached ∈ w.caches.pools, ∀ pid, 0 < w.last pid → pid ∈ pidsOf cached.2
  known : ∀ cached ∈ w.caches.user, ∀ pid, 0 < w.last pid → FARM_USER_RECONCILE ≤ w.clock - cached.reconciledAt ∨ pid ∈ cached.pids

theorem last_cases (positive : 0 < (w.call isVenuePair r).last pid) :
    (∃ cached stake, farmPools isVenuePair w.caches r = some cached ∧ r.userInfo = some stake ∧
      pid ∈ pidsOf (scanPools w.caches.user r.now cached.2) ∧ stake pid = some ((w.call isVenuePair r).last pid)) ∨
    (0 < w.last pid ∧ reads isVenuePair w.caches r pid = none) := by
  cases read : reads isVenuePair w.caches r pid with
  | none => exact .inr ⟨by simpa [Watched.call, read] using positive, rfl⟩
  | some amount =>
    have same : (w.call isVenuePair r).last pid = amount := by simp [Watched.call, read]
    obtain ⟨cached, mapped, read⟩ := Option.bind_eq_some_iff.mp read
    obtain ⟨stake, reply, read⟩ := Option.bind_eq_some_iff.mp read
    obtain ⟨inside, here⟩ := Option.ite_none_right_eq_some.mp read
    exact .inl ⟨cached, stake, mapped, reply, inside, by rw [same, here]⟩

theorem due_or_known (knows : w.Knows) (ordered : w.clock ≤ r.now) (positive : 0 < (w.call isVenuePair r).last pid) :
    ∀ cached ∈ w.caches.user, FARM_USER_RECONCILE ≤ r.now - cached.reconciledAt ∨ pid ∈ cached.pids := by
  rcases last_cases positive with ⟨_, _, _, _, inside, _⟩ | ⟨before, _⟩
  · exact (mem_scanned.mp inside).2
  · exact fun user is => (knows.known user is pid before).imp_left fun due => by omega

theorem scanned_of_last (knows : w.Knows) (answered : w.Answered isVenuePair r) (mapped : farmPools isVenuePair w.caches r = some cached)
    (positive : 0 < (w.call isVenuePair r).last pid) : pid ∈ pidsOf (scanPools w.caches.user r.now cached.2) := by
  refine mem_scanned.mpr ⟨?_, due_or_known knows answered.ordered positive⟩
  rcases last_cases positive with ⟨other, _, same, _, inside, _⟩ | ⟨before, _⟩
  · obtain rfl := Option.some.inj (mapped.symm.trans same)
    exact (mem_scanned.mp inside).1
  unfold farmPools at mapped
  split at mapped
  · exact knows.mapped cached mapped pid before
  · rename_i stale
    obtain ⟨pools, loaded, rfl⟩ := Option.map_eq_some_iff.mp mapped
    exact loaded_mem (answered.mapped (Bool.eq_false_of_not_eq_true stale) pid before) loaded

theorem read_of_last (answered : w.Answered isVenuePair r) (mapped : farmPools isVenuePair w.caches r = some cached)
    (inside : pid ∈ pidsOf (scanPools w.caches.user r.now cached.2)) (reply : r.userInfo = some stake)
    (known : unread w.caches.user (scanPools w.caches.user r.now cached.2) stake = false)
    (positive : 0 < (w.call isVenuePair r).last pid) : stake pid = some ((w.call isVenuePair r).last pid) := by
  rcases last_cases positive with ⟨_, other, _, same, _, read⟩ | ⟨before, silent⟩
  · obtain rfl := Option.some.inj (reply.symm.trans same)
    exact read
  have failed : stake pid = none := by simpa [reads, mapped, reply, inside] using silent
  refine absurd failed (answered.proved stake reply pid before fun user is listed => ?_)
  obtain ⟨pool, member, rfl⟩ := List.mem_map.mp inside
  have := List.any_eq_false.mp known pool member
  simp [Option.mem_def.mp is, listed, failed] at this

theorem call_keeps (knows : w.Knows) (answered : w.Answered isVenuePair r) :
    w.Keeps isVenuePair r ∧ (w.call isVenuePair r).Knows := by
  have mapped : ∀ cached ∈ (w.call isVenuePair r).caches.pools, ∀ pid, 0 < (w.call isVenuePair r).last pid → pid ∈ pidsOf cached.2 :=
    fun cached inside pid positive => (mem_scanned.mp (scanned_of_last knows answered (fetch_pools ▸ inside) positive)).1
  rcases fetch_cases isVenuePair w.caches r with
    ⟨same, rest⟩ | ⟨cached, stake, loaded, reply, known, next, listed⟩
  · refine ⟨fun pid positive => rest.imp_right ?_, mapped, fun user is pid positive => ?_⟩
    · rintro ⟨cached, loaded, empty⟩
      have inside := scanned_of_last knows answered loaded positive
      rw [empty] at inside
      exact absurd inside List.not_mem_nil
    · exact due_or_known knows answered.ordered positive user (same ▸ is)
  · have scanned : ∀ pid, 0 < (w.call isVenuePair r).last pid → pid ∈ _ := fun _ => scanned_of_last knows answered loaded
    have read := fun pid positive => read_of_last answered loaded (scanned pid positive) reply known positive
    refine ⟨fun pid positive => ?_, mapped, fun user is pid positive => .inr ?_⟩
    · rw [Watched.answer, listed]
      exact listed_of_scanned (scanned pid positive) (read pid positive) positive (answered.detailed pid positive)
    · exact mem_nextUser (read pid positive) positive (next ▸ is) (.inr (scanned pid positive))

/-- What the caches know of a deposit that was made by a time. -/
structure Watched.Finds (pid : ℕ) (made : ℤ) (w : Watched) : Prop where
  mapped : ∀ cached ∈ w.caches.pools, made < cached.1 → pid ∈ pidsOf cached.2
  known : ∀ cached ∈ w.caches.user, made + FARM_POOLS_TTL ≤ cached.reconciledAt → pid ∈ cached.pids
  stamped : ∀ cached ∈ w.caches.user, cached.reconciledAt ≤ w.clock

/-- Calls in order, which all succeed from the deposit on. -/
def Watched.Deposited (isVenuePair : PairAddress → PairAddress → PairAddress → Bool) (pid : ℕ) (made : ℤ) (w : Watched) (r : Replies) : Prop :=
  w.clock ≤ r.now ∧ (made ≤ r.now → Standing isVenuePair r pid)

section
variable {made : ℤ} (finds : w.Finds pid made) (deposited : w.Deposited isVenuePair pid made r)
include finds deposited

theorem mapped_later (mapped : farmPools isVenuePair w.caches r = some cached) :
    (made < cached.1 → pid ∈ pidsOf cached.2) ∧ (made + FARM_POOLS_TTL ≤ r.now → pid ∈ pidsOf cached.2) := by
  unfold farmPools at mapped
  split at mapped
  · rename_i fresh
    have recent : r.now - cached.1 < FARM_POOLS_TTL := by simpa [FarmCaches.fresh, mapped] using fresh
    exact ⟨finds.mapped cached mapped, fun later => finds.mapped cached mapped (by omega)⟩
  · obtain ⟨pools, loaded, rfl⟩ := Option.map_eq_some_iff.mp mapped
    have inside : made ≤ r.now → pid ∈ pidsOf pools := fun later => loaded_mem (deposited.2 later).mapped loaded
    exact ⟨fun later => inside (Int.le_of_lt later), fun later => inside (by unfold FARM_POOLS_TTL at later; omega)⟩

theorem call_finds : (w.call isVenuePair r).Finds pid made := by
  have mapped : ∀ cached ∈ (w.call isVenuePair r).caches.pools, made < cached.1 → pid ∈ pidsOf cached.2 :=
    fun cached inside => (mapped_later finds deposited (fetch_pools ▸ inside)).1
  rcases fetch_cases isVenuePair w.caches r with ⟨same, _⟩ | ⟨cached, stake, loaded, reply, _, next, _⟩
  · exact ⟨mapped, fun user is => finds.known user (same ▸ is), fun user is => (finds.stamped user (same ▸ is)).trans deposited.1⟩
  have stamped : ∀ user ∈ (w.call isVenuePair r).caches.user, user.reconciledAt ≤ r.now := by
    intro user is
    rcases (nextUser_eq (next ▸ is)).2 with ⟨same, _⟩ | ⟨old, before, same⟩
    · exact same.le
    · exact same ▸ (finds.stamped old before).trans deposited.1
  refine ⟨mapped, fun user is late => ?_, stamped⟩
  have passed := late.trans (stamped user is)
  have positive_window : 0 < FARM_POOLS_TTL := by decide
  obtain ⟨other, same, _, amount, read, positive⟩ := (deposited.2 (by omega)).staked
  obtain rfl := Option.some.inj (reply.symm.trans same)
  refine mem_nextUser read positive (next ▸ is) ?_
  by_cases due : reconcileAll w.caches.user r.now
  · refine .inr ?_
    rw [scanPools, if_pos due]
    exact (mapped_later finds deposited loaded).2 passed
  · rcases (nextUser_eq (next ▸ is)).2 with ⟨_, all⟩ | ⟨old, before, same⟩
    · exact absurd all due
    · exact .inl ⟨Bool.eq_false_of_not_eq_true due, old, before, finds.known old before (same ▸ late)⟩

theorem listed_later (late : made + FARM_POOLS_TTL + FARM_USER_RECONCILE ≤ r.now) :
    ∃ stake ∈ r.userInfo, ∃ amount ∈ stake pid, (w.answer isVenuePair r).Lists pid amount := by
  have windows : 0 < FARM_POOLS_TTL ∧ 0 < FARM_USER_RECONCILE := by decide
  have standing := deposited.2 (by omega)
  obtain ⟨stake, reply, all, amount, read, positive⟩ := standing.staked
  refine ⟨stake, reply, amount, read, ?_⟩
  have loads : (farmPools isVenuePair w.caches r).isSome := by
    unfold farmPools
    split
    · rename_i fresh
      cases same : w.caches.pools with
      | none => simp [FarmCaches.fresh, same] at fresh
      | some cached => rfl
    · simpa using standing.loaded
  obtain ⟨cached, loaded⟩ := Option.isSome_iff_exists.mp loads
  have inside : pid ∈ pidsOf (scanPools w.caches.user r.now cached.2) := by
    refine mem_scanned.mpr ⟨(mapped_later finds deposited loaded).2 (by omega), fun user is => ?_⟩
    by_cases recent : made + FARM_POOLS_TTL ≤ user.reconciledAt
    · exact .inr (finds.known user is recent)
    · exact .inl (by omega)
  have answer : w.answer isVenuePair r = listHeld r (heldOf stake (scanPools w.caches.user r.now cached.2)) := by
    have known : ¬unread w.caches.user (scanPools w.caches.user r.now cached.2) stake := by simp [unread, all]
    have some_scanned : scanPools w.caches.user r.now cached.2 ≠ [] := fun empty => by simp [empty, pidsOf] at inside
    simp [Watched.answer, fetchV2FarmPositions, loaded, some_scanned, reply, known]
  rw [answer]
  refine (listed_of_scanned inside read positive standing.detailed).resolve_left ?_
  obtain ⟨details, entries⟩ := Option.isSome_iff_exists.mp standing.read.1
  unfold listHeld
  rw [entries, standing.read.2]
  split <;> simp

end

theorem farm_positions_kept (isVenuePair : PairAddress → PairAddress → PairAddress → Bool) (clock : ℤ) (earlier : List Replies)
    (r : Replies) :
    (Along (Watched.call isVenuePair) (Watched.Answered isVenuePair) (.fresh clock) (earlier ++ [r]) →
      (run (Watched.call isVenuePair) (.fresh clock) earlier).Keeps isVenuePair r) ∧
    ∀ pid made, Along (Watched.call isVenuePair) (Watched.Deposited isVenuePair pid made) (.fresh clock) (earlier ++ [r]) →
      made + FARM_POOLS_TTL + FARM_USER_RECONCILE ≤ r.now → ∃ stake ∈ r.userInfo, ∃ amount ∈ stake pid,
        ((run (Watched.call isVenuePair) (.fresh clock) earlier).answer isVenuePair r).Lists pid amount := by
  constructor
  · intro along
    obtain ⟨before, answered, _⟩ := along_append.mp along
    have knows := run_keeps (fun w r knows answered => (call_keeps knows answered).2) (by constructor <;> simp [Watched.fresh]) before
    exact (call_keeps knows answered).1
  · intro pid made along late
    obtain ⟨before, deposited, _⟩ := along_append.mp along
    have finds := run_keeps (fun w r finds deposited => call_finds finds deposited) (by constructor <;> simp [Watched.fresh]) before
    exact listed_later finds deposited late

/-- A farm of one pair, in which the wallet holds a deposit of five. -/
def onePair (now : ℤ) (reserves : Option (ℕ × ℕ)) : Replies :=
  ⟨now, some (some 1), some fun _ => some 0, some fun _ => (some 1, some 2), some fun _ => some 5, some fun _ => (reserves, some 10), true⟩

/-- The second call does not get the reserves. -/
theorem position_dropped : ¬∀ (isVenuePair : PairAddress → PairAddress → PairAddress → Bool) (clock : ℤ) (earlier : List Replies)
    (r : Replies), Along (Watched.call isVenuePair) (fun w r => w.clock ≤ r.now) (.fresh clock) (earlier ++ [r]) →
      (run (Watched.call isVenuePair) (.fresh clock) earlier).Keeps isVenuePair r := by
  intro claim
  have dropped := claim (fun _ _ _ => true) 0 [onePair 0 (some (20, 30))] (onePair 1 none) (by decide) 0 (by decide)
  rcases dropped with threw | ⟨v2, listed, position, inside, _⟩
  · cases threw
  · cases listed
    cases inside

end LpTerminal.V2Farm
