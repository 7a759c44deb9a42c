import LpTerminal.Catalog.Rows
import LpTerminal.Lib.Durable
import LpTerminal.Lib.Fallible
import LpTerminal.Lib.Keyset

/-!
The sweeps of pool state: the reads of a page of pools in one multicall, the row each pool gets from its own answers, and where
the rows loaded by address differ from the rows loaded by page. Clocks and dollar figures are left out.
-/

namespace LpTerminal.State

open Catalog (PoolProto)
export Catalog (Address)

structure PoolRow where
  address : Address
  proto : PoolProto
  token0 : Address
  token1 : Address
  gauge : Option Address
deriving DecidableEq

inductive FunctionName
  | slot0
  | liquidity
  | stakedLiquidity
  | balanceOf (owner : Address)
  | rewardRate
  | periodFinish
  | isAlive (gauge : Address)
  | getReserves
  | totalSupply

structure Call where
  address : Address
  functionName : FunctionName

inductive Value
  | slot0 (sqrtPrice : Nat) (tick : Int)
  | amount (n : Nat)
  | flag (b : Bool)
  | reserves (reserve0 reserve1 : Nat)

structure PoolState where
  address : Address
  proto : Option PoolProto
  sqrtPrice : Option Nat
  tick : Option Int
  liquidity : Option Nat
  stakedLiquidity : Nat
  rewardRate : Nat
  periodFinish : Nat
  gaugeAlive : Bool
  reserve0 : Nat
  reserve1 : Nat
  totalSupply : Option Nat

abbrev Pools := Table PoolRow.address

abbrev States := Table PoolState.address

def CATALOG_PAGE_SIZE : Nat := 1000

def slot0Of : Option Value → Option (Nat × Int)
  | some (.slot0 sqrtPrice tick) => some (sqrtPrice, tick)
  | _ => none

def amountOf : Option Value → Option Nat
  | some (.amount n) => some n
  | _ => none

def flagOf : Option Value → Option Bool
  | some (.flag b) => some b
  | _ => none

def reservesOf : Option Value → Option (Nat × Nat)
  | some (.reserves reserve0 reserve1) => some (reserve0, reserve1)
  | _ => none

def poolRowsQ (pools : Pools) (addrs : List Address) : List PoolRow :=
  addrs.filterMap fun a => (pools.get? a).map fun row => { row with gauge := none }

def poolRowsPage (pools : Pools) (afterAddress : Option Address) (limit : Nat) : List PoolRow := pools.page afterAddress limit

def rowCalls (gov : Option Address) (p : PoolRow) : Except String (List Call) :=
  match p.proto with
  | .up33cl =>
    match gov with
    | none => .error "UP33 pool found on a chain without governance contracts"
    | some voter =>
      .ok ([⟨p.address, .slot0⟩, ⟨p.address, .liquidity⟩, ⟨p.address, .stakedLiquidity⟩, ⟨p.token0, .balanceOf p.address⟩,
          ⟨p.token1, .balanceOf p.address⟩] ++
        match p.gauge with
        | some gauge => [⟨gauge, .rewardRate⟩, ⟨gauge, .periodFinish⟩, ⟨voter, .isAlive gauge⟩]
        | none => [])
  | .univ3 | .pancakev3 =>
    .ok [⟨p.address, .slot0⟩, ⟨p.address, .liquidity⟩, ⟨p.token0, .balanceOf p.address⟩, ⟨p.token1, .balanceOf p.address⟩]
  | .univ2 | .pancakev2 => .ok [⟨p.address, .getReserves⟩, ⟨p.address, .totalSupply⟩]

def width (p : PoolRow) : Nat :=
  match p.proto with
  | .up33cl => if p.gauge.isSome then 8 else 5
  | .univ3 | .pancakev3 => 4
  | .univ2 | .pancakev2 => 2

def poolState (p : PoolRow) (res : Nat → Option Value) (stored : Option PoolState) : Option PoolState :=
  let row (s0 : Option (Nat × Int)) (liquidity : Option Nat) (staked rewardRate periodFinish : Nat) (gaugeAlive : Bool)
      (reserve0 reserve1 : Nat) (totalSupply : Option Nat) : PoolState :=
    ⟨p.address, some p.proto, s0.map Prod.fst, s0.map Prod.snd, liquidity, staked, rewardRate, periodFinish, gaugeAlive, reserve0, reserve1,
      totalSupply⟩
  match p.proto with
  | .up33cl =>
    let b0 := amountOf (res 3)
    let b1 := amountOf (res 4)
    let rewardRate := if p.gauge.isSome then amountOf (res 5) else some 0
    let periodFinish := if p.gauge.isSome then amountOf (res 6) else some 0
    let gaugeAlive := if p.gauge.isSome then flagOf (res 7) else some false
    match slot0Of (res 0), amountOf (res 1), amountOf (res 2) with
    | some s0, some liq, some staked =>
      let stored := if b0 = none ∨ b1 = none then stored else none
      some (row (some s0) (some liq) staked (rewardRate.getD 0) (periodFinish.getD 0) (gaugeAlive.getD false)
        (b0.getD ((stored.map PoolState.reserve0).getD 0)) (b1.getD ((stored.map PoolState.reserve1).getD 0)) none)
    | _, _, _ => none
  | .univ3 | .pancakev3 =>
    let b0 := amountOf (res 2)
    let b1 := amountOf (res 3)
    match slot0Of (res 0), amountOf (res 1) with
    | some s0, some liq =>
      -- a partial balance read keeps the row it finds
      if (b0 = none ∨ b1 = none) ∧ stored.isSome then none
      else some (row (some s0) (some liq) 0 0 0 false (b0.getD 0) (b1.getD 0) none)
    | _, _ => none
  | .univ2 | .pancakev2 =>
    match reservesOf (res 0), amountOf (res 1) with
    | some rs, some ts => some (row none none 0 0 0 false rs.1 rs.2 (some ts))
    | _, _ => none

structure Sweeping where
  states : States
  i : Nat
  done : Nat

/-- `res[i++]`, where an entry may be missing. -/
def resultAt (res : List (Option Value)) (i : Nat) : Option Value := (res[i]?).join

def sweepRow (res : List (Option Value)) (s : Sweeping) (p : PoolRow) : Sweeping :=
  match poolState p (fun k => resultAt res (s.i + k)) (s.states.get? p.address) with
  | some state => ⟨s.states.put state, s.i + width p, s.done + 1⟩
  | none => { s with i := s.i + width p }

abbrev Sweep := Durable String States

section Sweeps

variable (gov : Option Address) (answers : Call → Option Value) (pools : Pools)

def sweepRows (rows : List PoolRow) : Sweep Nat :=
  if rows = [] then pure 0
  else do
    let calls ← Durable.reply (Fallible.collect (rowCalls gov) rows)
    let states ← Durable.read
    let swept := rows.foldl (sweepRow (calls.flatten.map answers)) ⟨states, 0, 0⟩
    Durable.write fun _ => swept.states
    return swept.done

def sweepChunk (addrs : List Address) (done chunk : Nat) : Sweep Nat := do
  let swept ← sweepRows gov answers (poolRowsQ pools ((addrs.drop (CATALOG_PAGE_SIZE * chunk)).take CATALOG_PAGE_SIZE))
  return done + swept

def sweepState (addrs : List Address) : Sweep Nat :=
  (List.range ((addrs.length + (CATALOG_PAGE_SIZE - 1)) / CATALOG_PAGE_SIZE)).foldlM (sweepChunk gov answers pools addrs) 0

/-- The loop, over at most `pages` pages. -/
def sweepPages : Nat → Option Address → Nat → Nat → Sweep (Nat × Nat)
  | 0, _, _, _ => Durable.fail "the sweep does not end"
  | pages + 1, cursor, done, total => do
    let rows := poolRowsPage pools cursor CATALOG_PAGE_SIZE
    match rows.getLast? with
    | none => return (done, total)
    | some last => do
      let swept ← sweepRows gov answers rows
      sweepPages pages (some last.address) (done + swept) (total + rows.length)

def sweepAllState : Sweep (Nat × Nat) := sweepPages gov answers pools (pools.rows.length + 1) none 0 0

def sweepStatePage (afterAddress : Option Address) (limit : Nat) : Sweep (Nat × Option Address) := do
  let pageLimit := max 1 limit
  let rows := poolRowsPage pools afterAddress pageLimit
  let done ← sweepRows gov answers rows
  return (done, if rows.length < pageLimit then none else rows.getLast?.map PoolRow.address)

end Sweeps

open Catalog (PoolProto)

variable {gov : Option Address} {answers : Call → Option Value} {pools : Pools} {states : States} {p : PoolRow} {rows : List PoolRow}
  {stored : Option PoolState} {state : PoolState} {a : Address}

def ownCalls (gov : Option Address) (p : PoolRow) : List Call := ((rowCalls gov p).toOption).getD []

theorem ownCalls_length {calls : List Call} (listed : rowCalls gov p = .ok calls) : calls.length = width p := by
  unfold rowCalls at listed
  unfold width
  split at listed
  · split at listed
    · cases listed
    · cases listed
      cases p.gauge <;> rfl
  · cases listed
    rfl
  · cases listed
    rfl
  · cases listed
    rfl
  · cases listed
    rfl

theorem poolState_congr {first second : Nat → Option Value} (same : ∀ k < width p, first k = second k) :
    poolState p first stored = poolState p second stored := by
  unfold width at same
  unfold poolState
  cases proto : p.proto with
  | up33cl =>
    simp only [proto] at same
    cases gauge : p.gauge with
    | none =>
      simp only [gauge, Option.isSome_none, Bool.false_eq_true, if_false] at same ⊢
      rw [same 0 (by decide), same 1 (by decide), same 2 (by decide), same 3 (by decide), same 4 (by decide)]
    | some gauge' =>
      simp only [gauge, Option.isSome_some, if_true] at same ⊢
      rw [same 0 (by decide), same 1 (by decide), same 2 (by decide), same 3 (by decide), same 4 (by decide), same 5 (by decide),
        same 6 (by decide), same 7 (by decide)]
  | univ3 =>
    simp only [proto] at same
    dsimp only
    rw [same 0 (by decide), same 1 (by decide), same 2 (by decide), same 3 (by decide)]
  | pancakev3 =>
    simp only [proto] at same
    dsimp only
    rw [same 0 (by decide), same 1 (by decide), same 2 (by decide), same 3 (by decide)]
  | univ2 =>
    simp only [proto] at same
    dsimp only
    rw [same 0 (by decide), same 1 (by decide)]
  | pancakev2 =>
    simp only [proto] at same
    dsimp only
    rw [same 0 (by decide), same 1 (by decide)]

theorem poolState_address {res : Nat → Option Value} (left : poolState p res stored = some state) : state.address = p.address := by
  unfold poolState at left
  split at left
  · dsimp only at left
    split at left
    · cases left
      rfl
    · cases left
  · dsimp only at left
    split at left
    · split at left
      · cases left
      · cases left
        rfl
    · cases left
  · dsimp only at left
    split at left
    · split at left
      · cases left
      · cases left
        rfl
    · cases left
  · dsimp only at left
    split at left
    · cases left
      rfl
    · cases left
  · dsimp only at left
    split at left
    · cases left
      rfl
    · cases left

def settle (p : PoolRow) (res : Nat → Option Value) (stored : Option PoolState) : Option PoolState := (poolState p res stored).or stored

theorem poolState_again {res : Nat → Option Value} (left : poolState p res stored = some state) :
    poolState p res (some state) = some state ∨ poolState p res (some state) = none := by
  unfold poolState at left ⊢
  cases proto : p.proto with
  | up33cl =>
    simp only [proto] at left ⊢
    split at left
    · -- a balance that failed is the stored one, which the first write has kept
      cases left
      refine Or.inl ?_
      cases b0 : amountOf (res 3) <;> cases b1 : amountOf (res 4) <;> simp
    · cases left
  | univ3 =>
    simp only [proto] at left ⊢
    split at left
    · split at left
      · cases left
      · cases left
        split
        · exact Or.inr rfl
        · exact Or.inl rfl
    · cases left
  | pancakev3 =>
    simp only [proto] at left ⊢
    split at left
    · split at left
      · cases left
      · cases left
        split
        · exact Or.inr rfl
        · exact Or.inl rfl
    · cases left
  | univ2 =>
    simp only [proto] at left ⊢
    exact Or.inl left
  | pancakev2 =>
    simp only [proto] at left ⊢
    exact Or.inl left

theorem settle_idem {res : Nat → Option Value} : settle p res (settle p res stored) = settle p res stored := by
  unfold settle
  cases left : poolState p res stored with
  | none => rw [Option.none_or, left, Option.none_or]
  | some state =>
    rw [Option.some_or]
    rcases poolState_again left with same | none
    · rw [same, Option.some_or]
    · rw [none, Option.none_or]

theorem resultAt_append {before own rest : List (Option Value)} {k : Nat} (inside : k < own.length) :
    resultAt (before ++ own ++ rest) (before.length + k) = resultAt own k := by
  unfold resultAt
  rw [List.append_assoc, List.getElem?_append_right (by omega), show before.length + k - before.length = k by omega,
    List.getElem?_append_left inside]

theorem sweepRow_own {before own rest : List (Option Value)} {done : Nat} (length : own.length = width p) :
    sweepRow (before ++ own ++ rest) ⟨states, before.length, done⟩ p =
      { sweepRow own ⟨states, 0, done⟩ p with i := before.length + own.length } := by
  have same : poolState p (fun k => resultAt (before ++ own ++ rest) (before.length + k)) (states.get? p.address) =
      poolState p (fun k => resultAt own (0 + k)) (states.get? p.address) := by
    refine poolState_congr fun k inside => ?_
    rw [Nat.zero_add]
    exact resultAt_append (by omega)
  unfold sweepRow
  dsimp only
  rw [same, length]
  cases poolState p (fun k => resultAt own (0 + k)) (states.get? p.address) <;> rfl

def sweepPool (gov : Option Address) (answers : Call → Option Value) (states : States) (p : PoolRow) : States :=
  (sweepRow ((ownCalls gov p).map answers) ⟨states, 0, 0⟩ p).states

theorem sweepRow_states {res : List (Option Value)} {i done other : Nat} :
    (sweepRow res ⟨states, i, done⟩ p).states = (sweepRow res ⟨states, i, other⟩ p).states := by
  unfold sweepRow
  dsimp only
  split <;> rfl

theorem foldl_sweepRow {results : List (List (Option Value))} (widths : List.Forall₂ (fun p own => own.length = width p) rows results)
    {before : List (Option Value)} {done : Nat} :
    (rows.foldl (sweepRow (before ++ results.flatten)) ⟨states, before.length, done⟩).states =
      (rows.zip results).foldl (fun states row => (sweepRow row.2 ⟨states, 0, 0⟩ row.1).states) states := by
  induction widths generalizing before states done with
  | nil => rfl
  | @cons p own rows results head tail ih =>
    have first : (sweepRow own ⟨states, 0, done⟩ p).states = (sweepRow own ⟨states, 0, 0⟩ p).states := sweepRow_states
    rw [List.flatten_cons, List.foldl_cons, List.zip_cons_cons, List.foldl_cons, ← List.append_assoc, sweepRow_own head, ← List.length_append, ih,
      first]

theorem zip_sweepPool {calls : List (List Call)} (listed : List.Forall₂ (fun p own => rowCalls gov p = .ok own) rows calls) :
    (rows.zip (calls.map (List.map answers))).foldl (fun states row => (sweepRow row.2 ⟨states, 0, 0⟩ row.1).states) states =
      rows.foldl (sweepPool gov answers) states := by
  induction listed generalizing states with
  | nil => rfl
  | @cons p own rows calls head tail ih =>
    have same : ownCalls gov p = own := by
      unfold ownCalls
      rw [head]
      rfl
    rw [List.map_cons, List.zip_cons_cons, List.foldl_cons, List.foldl_cons, ih]
    unfold sweepPool
    rw [same]

theorem sweepRows_own {done : Nat} {states' : States} (ran : (sweepRows gov answers rows).run states = (.ok done, states')) :
    states' = rows.foldl (sweepPool gov answers) states := by
  unfold sweepRows at ran
  split at ran
  · rename_i none
    cases ran
    rw [none]
    rfl
  · obtain ⟨calls, middle, told, rest⟩ := Durable.bind_returns ran
    have listed : Fallible.collect (rowCalls gov) rows = .ok calls ∧ middle = states := by
      unfold Durable.reply at told
      exact ⟨congrArg Prod.fst told, (congrArg Prod.snd told).symm⟩
    obtain ⟨listed, rfl⟩ := listed
    cases rest
    have related := Fallible.collect_ok listed
    have widths : List.Forall₂ (fun p own => own.length = width p) rows (calls.map (List.map answers)) :=
      List.forall₂_map_right_iff.mpr (related.imp fun p own told => by rw [List.length_map, ownCalls_length told])
    have swept := @foldl_sweepRow middle rows _ widths [] 0
    rw [List.map_flatten]
    exact swept.trans (zip_sweepPool related)

def ownResult (gov : Option Address) (answers : Call → Option Value) (p : PoolRow) (k : Nat) : Option Value :=
  (ownCalls gov p)[k]?.bind answers

theorem sweepPool_get : (sweepPool gov answers states p).get? a =
    if a = p.address then settle p (ownResult gov answers p) (states.get? a) else states.get? a := by
  have own : (fun k => resultAt ((ownCalls gov p).map answers) (0 + k)) = ownResult gov answers p := by
    funext k
    unfold resultAt ownResult
    rw [Nat.zero_add, List.getElem?_map]
    cases (ownCalls gov p)[k]? <;> rfl
  unfold sweepPool sweepRow
  dsimp only
  rw [own]
  cases left : poolState p (ownResult gov answers p) (states.get? p.address) with
  | none =>
    dsimp only
    split
    · rename_i same
      rw [same]
      unfold settle
      rw [left, Option.none_or]
    · rfl
  | some state =>
    have key := poolState_address left
    dsimp only
    split
    · rename_i same
      rw [same, ← key, Table.get?_put_same]
      unfold settle
      rw [key, left, Option.some_or]
    · rename_i other
      exact Table.get?_put_other (by rw [key]; exact other)

theorem foldl_get_other (others : ∀ p ∈ rows, p.address ≠ a) : (rows.foldl (sweepPool gov answers) states).get? a = states.get? a := by
  induction rows generalizing states with
  | nil => rfl
  | cons p rest ih =>
    obtain ⟨own, later⟩ := List.forall_mem_cons.mp others
    rw [List.foldl_cons, ih later, sweepPool_get, if_neg (Ne.symm own)]

theorem foldl_get (one : ∀ p ∈ rows, ∀ q ∈ rows, p.address = q.address → p = q) (member : p ∈ rows) :
    (rows.foldl (sweepPool gov answers) states).get? p.address = settle p (ownResult gov answers p) (states.get? p.address) := by
  induction rows generalizing states with
  | nil => cases member
  | cons q rest ih =>
    rw [List.foldl_cons]
    have rest' : ∀ p ∈ rest, ∀ q ∈ rest, p.address = q.address → p = q := fun p inP q inQ =>
      one p (List.mem_cons_of_mem _ inP) q (List.mem_cons_of_mem _ inQ)
    by_cases again : p ∈ rest
    · rw [ih rest' again, sweepPool_get]
      split
      · rename_i same
        obtain rfl := one p member q List.mem_cons_self same
        exact settle_idem
      · rfl
    · obtain rfl : p = q := (List.mem_cons.mp member).resolve_right again
      rw [foldl_get_other fun q inside same => ?_, sweepPool_get, if_pos rfl]
      obtain rfl := one p member q (List.mem_cons_of_mem _ inside) same.symm
      exact again inside

theorem sweepRows_returns {voter : Address} : ∃ done, (sweepRows (some voter) answers rows).run states =
    (.ok done, rows.foldl (sweepPool (some voter) answers) states) := by
  have listed : ∀ rows : List PoolRow, ∃ calls, Fallible.collect (rowCalls (some voter)) rows = .ok calls := by
    intro rows
    induction rows with
    | nil => exact ⟨_, rfl⟩
    | cons p rest ih =>
      obtain ⟨calls, later⟩ := ih
      obtain ⟨own, read⟩ : ∃ own, rowCalls (some voter) p = .ok own := by
        unfold rowCalls
        cases p.proto <;> exact ⟨_, rfl⟩
      unfold Fallible.collect
      rw [read, later]
      exact ⟨_, rfl⟩
  obtain ⟨calls, told⟩ := listed rows
  rcases ran : (sweepRows (some voter) answers rows).run states with ⟨outcome, states'⟩
  cases outcome with
  | ok done => exact ⟨done, by rw [sweepRows_own ran]⟩
  | error e =>
    unfold sweepRows at ran
    split at ran
    · cases ran
    · rw [Durable.run_bind_ok (Durable.run_reply_ok told states)] at ran
      cases ran

theorem sweepChunk_own {addrs : List Address} {done chunk swept : Nat} {states' : States}
    (ran : (sweepChunk gov answers pools addrs done chunk).run states = (.ok swept, states')) :
    states' = (poolRowsQ pools ((addrs.drop (CATALOG_PAGE_SIZE * chunk)).take CATALOG_PAGE_SIZE)).foldl (sweepPool gov answers) states := by
  obtain ⟨_, middle, own, rest⟩ := Durable.bind_returns ran
  cases rest
  exact sweepRows_own own

theorem poolRowsQ_append {first second : List Address} : poolRowsQ pools (first ++ second) = poolRowsQ pools first ++ poolRowsQ pools second :=
  List.filterMap_append

theorem sweepChunks_own {addrs : List Address} {chunks done : Nat} {states' : States}
    (ran : ((List.range chunks).foldlM (sweepChunk gov answers pools addrs) 0).run states = (.ok done, states')) :
    states' = (poolRowsQ pools (addrs.take (CATALOG_PAGE_SIZE * chunks))).foldl (sweepPool gov answers) states := by
  induction chunks generalizing done states' with
  | zero =>
    cases ran
    rfl
  | succ chunks ih =>
    rw [List.range_succ, List.foldlM_append] at ran
    obtain ⟨before, middle, early, last⟩ := Durable.bind_returns ran
    obtain ⟨swept, final, own, rest⟩ := Durable.bind_returns last
    cases rest
    rw [Nat.mul_succ, List.take_add, poolRowsQ_append, List.foldl_append, ← ih early]
    exact sweepChunk_own own

theorem sweepState_own {addrs : List Address} {done : Nat} {states' : States}
    (ran : (sweepState gov answers pools addrs).run states = (.ok done, states')) :
    states' = (poolRowsQ pools addrs).foldl (sweepPool gov answers) states := by
  have swept := sweepChunks_own ran
  rw [List.take_of_length_le (by unfold CATALOG_PAGE_SIZE; omega)] at swept
  exact swept

theorem sweepPages_own {fuel done total : Nat} {cursor : Option Address} {result : Nat × Nat} {states' : States}
    (ran : (sweepPages gov answers pools fuel cursor done total).run states = (.ok result, states')) :
    states' = (pools.after cursor).foldl (sweepPool gov answers) states := by
  induction fuel generalizing cursor done total states with
  | zero => cases ran
  | succ fuel ih =>
    unfold sweepPages at ran
    dsimp only at ran
    split at ran
    · rename_i none
      cases ran
      have empty : pools.after cursor = [] := by
        have short := List.getLast?_eq_none_iff.mp none
        unfold poolRowsPage Table.page at short
        exact (List.take_eq_nil_iff.mp short).resolve_left (by decide)
      rw [empty]
      rfl
    · rename_i last ends
      obtain ⟨swept, middle, own, rest⟩ := Durable.bind_returns ran
      rw [ih rest, sweepRows_own own, ← List.foldl_append, @Table.after_last _ _ _ PoolRow.address pools cursor CATALOG_PAGE_SIZE last ends]
      unfold poolRowsPage Table.page
      rw [List.take_append_drop]

theorem sweepAllState_own {result : Nat × Nat} {states' : States}
    (ran : (sweepAllState gov answers pools).run states = (.ok result, states')) :
    states' = pools.rows.foldl (sweepPool gov answers) states := by
  have swept := sweepPages_own ran
  rw [Table.after_none] at swept
  exact swept

theorem sweepStatePage_own {cursor : Option Address} {limit : Nat} {result : Nat × Option Address} {states' : States}
    (ran : (sweepStatePage gov answers pools cursor limit).run states = (.ok result, states')) :
    states' = (poolRowsPage pools cursor (max 1 limit)).foldl (sweepPool gov answers) states := by
  obtain ⟨done, middle, own, rest⟩ := Durable.bind_returns ran
  cases rest
  exact sweepRows_own own

theorem sweepState_returns {voter : Address} {addrs : List Address} :
    ∃ done states', (sweepState (some voter) answers pools addrs).run states = (.ok done, states') := by
  unfold sweepState
  generalize List.range _ = chunks
  generalize 0 = done
  induction chunks generalizing done states with
  | nil => exact ⟨_, _, rfl⟩
  | cons chunk rest ih =>
    obtain ⟨swept, ran⟩ := @sweepRows_returns answers states (poolRowsQ pools ((addrs.drop (CATALOG_PAGE_SIZE * chunk)).take CATALOG_PAGE_SIZE)) voter
    obtain ⟨states', one⟩ : ∃ states', (sweepChunk (some voter) answers pools addrs done chunk).run states = (.ok (done + swept), states') := by
      unfold sweepChunk
      rw [Durable.run_bind_ok ran]
      exact ⟨_, rfl⟩
    rw [List.foldlM_cons, Durable.run_bind_ok one]
    exact ih _

theorem sweepPages_returns {voter : Address} {fuel done total : Nat} {cursor : Option Address} (enough : (pools.after cursor).length < fuel) :
    ∃ result states', (sweepPages (some voter) answers pools fuel cursor done total).run states = (.ok result, states') := by
  induction fuel generalizing cursor done total states with
  | zero => exact absurd enough (Nat.not_lt_zero _)
  | succ fuel ih =>
    unfold sweepPages
    dsimp only
    split
    · exact ⟨_, _, rfl⟩
    · rename_i last ends
      obtain ⟨swept, ran⟩ := @sweepRows_returns answers states (poolRowsPage pools cursor CATALOG_PAGE_SIZE) voter
      rw [Durable.run_bind_ok ran]
      refine ih ?_
      have shown : pools.after cursor ≠ [] := by
        intro none
        unfold poolRowsPage Table.page at ends
        rw [none] at ends
        cases ends
      have some' := List.length_pos_iff.mpr shown
      rw [@Table.after_last _ _ _ PoolRow.address pools cursor CATALOG_PAGE_SIZE last ends, List.length_drop]
      unfold CATALOG_PAGE_SIZE
      omega

def Readable (answers : Call → Option Value) (p : PoolRow) : Prop :=
  match p.proto with
  | .up33cl => (slot0Of (answers ⟨p.address, .slot0⟩)).isSome ∧ (amountOf (answers ⟨p.address, .liquidity⟩)).isSome ∧
      (amountOf (answers ⟨p.address, .stakedLiquidity⟩)).isSome
  | .univ3 | .pancakev3 => (slot0Of (answers ⟨p.address, .slot0⟩)).isSome ∧ (amountOf (answers ⟨p.address, .liquidity⟩)).isSome
  | .univ2 | .pancakev2 => (reservesOf (answers ⟨p.address, .getReserves⟩)).isSome ∧ (amountOf (answers ⟨p.address, .totalSupply⟩)).isSome

theorem ownResult_cl (proto : p.proto = .univ3 ∨ p.proto = .pancakev3) :
    ownResult gov answers p 0 = answers ⟨p.address, .slot0⟩ ∧ ownResult gov answers p 1 = answers ⟨p.address, .liquidity⟩ := by
  unfold ownResult ownCalls rowCalls
  rcases proto with proto | proto <;> rw [proto] <;> exact ⟨rfl, rfl⟩

theorem ownResult_v2 (proto : p.proto = .univ2 ∨ p.proto = .pancakev2) :
    ownResult gov answers p 0 = answers ⟨p.address, .getReserves⟩ ∧ ownResult gov answers p 1 = answers ⟨p.address, .totalSupply⟩ := by
  unfold ownResult ownCalls rowCalls
  rcases proto with proto | proto <;> rw [proto] <;> exact ⟨rfl, rfl⟩

theorem ownResult_up33 {voter : Address} (proto : p.proto = .up33cl) :
    ownResult (some voter) answers p 0 = answers ⟨p.address, .slot0⟩ ∧ ownResult (some voter) answers p 1 = answers ⟨p.address, .liquidity⟩ ∧
      ownResult (some voter) answers p 2 = answers ⟨p.address, .stakedLiquidity⟩ ∧
      ownResult (some voter) answers p 3 = answers ⟨p.token0, .balanceOf p.address⟩ ∧
      ownResult (some voter) answers p 4 = answers ⟨p.token1, .balanceOf p.address⟩ := by
  unfold ownResult ownCalls rowCalls
  rw [proto]
  exact ⟨rfl, rfl, rfl, rfl, rfl⟩

theorem ownResult_gauge {voter gauge : Address} (proto : p.proto = .up33cl) (has : p.gauge = some gauge) :
    ownResult (some voter) answers p 5 = answers ⟨gauge, .rewardRate⟩ ∧ ownResult (some voter) answers p 6 = answers ⟨gauge, .periodFinish⟩ ∧
      ownResult (some voter) answers p 7 = answers ⟨voter, .isAlive gauge⟩ := by
  unfold ownResult ownCalls rowCalls
  rw [proto, has]
  exact ⟨rfl, rfl, rfl⟩

theorem ownResult_ungoverned (proto : p.proto = .up33cl) (k : Nat) : ownResult none answers p k = none := by
  unfold ownResult ownCalls rowCalls
  rw [proto]
  rfl

theorem settle_unreadable (unreadable : ¬ Readable answers p) : settle p (ownResult gov answers p) stored = stored := by
  have none : poolState p (ownResult gov answers p) stored = none := by
    unfold Readable at unreadable
    unfold poolState
    cases proto : p.proto with
    | up33cl =>
      simp only [proto] at unreadable ⊢
      cases gov with
      | none =>
        rw [ownResult_ungoverned proto 0]
        rfl
      | some voter =>
        obtain ⟨s0, liq, staked, -, -⟩ := @ownResult_up33 answers p voter proto
        rw [s0, liq, staked]
        split
        · rename_i read0 read1 read2
          exact absurd ⟨by rw [read0]; rfl, by rw [read1]; rfl, by rw [read2]; rfl⟩ unreadable
        · rfl
    | univ3 =>
      simp only [proto] at unreadable ⊢
      obtain ⟨s0, liq⟩ := @ownResult_cl gov answers p (Or.inl proto)
      rw [s0, liq]
      split
      · rename_i read0 read1
        exact absurd ⟨by rw [read0]; rfl, by rw [read1]; rfl⟩ unreadable
      · rfl
    | pancakev3 =>
      simp only [proto] at unreadable ⊢
      obtain ⟨s0, liq⟩ := @ownResult_cl gov answers p (Or.inr proto)
      rw [s0, liq]
      split
      · rename_i read0 read1
        exact absurd ⟨by rw [read0]; rfl, by rw [read1]; rfl⟩ unreadable
      · rfl
    | univ2 =>
      simp only [proto] at unreadable ⊢
      obtain ⟨rs, ts⟩ := @ownResult_v2 gov answers p (Or.inl proto)
      rw [rs, ts]
      split
      · rename_i read0 read1
        exact absurd ⟨by rw [read0]; rfl, by rw [read1]; rfl⟩ unreadable
      · rfl
    | pancakev2 =>
      simp only [proto] at unreadable ⊢
      obtain ⟨rs, ts⟩ := @ownResult_v2 gov answers p (Or.inr proto)
      rw [rs, ts]
      split
      · rename_i read0 read1
        exact absurd ⟨by rw [read0]; rfl, by rw [read1]; rfl⟩ unreadable
      · rfl
  unfold settle
  rw [none, Option.none_or]

def GaugesIdle (gov : Option Address) (answers : Call → Option Value) (pools : Pools) (addrs : List Address) : Prop :=
  ∀ voter ∈ gov, ∀ p ∈ pools.rows, p.address ∈ addrs → p.proto = .up33cl → Readable answers p → ∀ gauge ∈ p.gauge,
    (amountOf (answers ⟨gauge, .rewardRate⟩)).getD 0 = 0 ∧ (amountOf (answers ⟨gauge, .periodFinish⟩)).getD 0 = 0 ∧
      (flagOf (answers ⟨voter, .isAlive gauge⟩)).getD false = false

theorem settle_gauge_aside (proto : p.proto ≠ .up33cl) :
    settle { p with gauge := none } (ownResult gov answers { p with gauge := none }) stored = settle p (ownResult gov answers p) stored := by
  unfold settle poolState ownResult ownCalls rowCalls
  cases same : p.proto with
  | up33cl => exact absurd same proto
  | _ => rfl

theorem settle_withoutGauge {voter : Address} : settle { p with gauge := none } (ownResult (some voter) answers { p with gauge := none }) stored =
      settle p (ownResult (some voter) answers p) stored ↔
    (p.proto = .up33cl → Readable answers p → ∀ gauge ∈ p.gauge,
      (amountOf (answers ⟨gauge, .rewardRate⟩)).getD 0 = 0 ∧ (amountOf (answers ⟨gauge, .periodFinish⟩)).getD 0 = 0 ∧
        (flagOf (answers ⟨voter, .isAlive gauge⟩)).getD false = false) := by
  by_cases proto : p.proto = .up33cl
  swap
  · exact ⟨fun _ own => absurd own proto, fun _ => settle_gauge_aside proto⟩
  cases has : p.gauge with
  | none =>
    have same : { p with gauge := none } = p := by
      rw [← has]
    rw [same]
    exact ⟨fun _ _ _ => nofun, fun _ => rfl⟩
  | some gauge =>
    by_cases readable : Readable answers p
    · obtain ⟨address, own, token0, token1, gauge'⟩ := p
      obtain rfl : own = .up33cl := proto
      obtain rfl : gauge' = some gauge := has
      obtain ⟨read0, read1, read2⟩ := readable
      obtain ⟨s0, read0⟩ := Option.isSome_iff_exists.mp read0
      obtain ⟨liq, read1⟩ := Option.isSome_iff_exists.mp read1
      obtain ⟨staked, read2⟩ := Option.isSome_iff_exists.mp read2
      obtain ⟨own0, own1, own2, own3, own4⟩ := @ownResult_up33 answers ⟨address, .up33cl, token0, token1, some gauge⟩ voter rfl
      obtain ⟨own5, own6, own7⟩ := @ownResult_gauge answers ⟨address, .up33cl, token0, token1, some gauge⟩ voter gauge rfl rfl
      obtain ⟨bare0, bare1, bare2, bare3, bare4⟩ := @ownResult_up33 answers ⟨address, .up33cl, token0, token1, none⟩ voter rfl
      unfold settle poolState
      simp only [own0, own1, own2, own3, own4, own5, own6, own7, bare0, bare1, bare2, bare3, bare4, read0, read1, read2,
        Option.isSome_none, Option.isSome_some, Bool.false_eq_true, if_false, if_true, Option.some_or, Option.getD_some, Option.some.injEq,
        PoolState.mk.injEq, true_and, and_true, Option.mem_def, forall_eq']
      constructor
      · rintro ⟨rate, period, alive⟩ _ _
        exact ⟨rate.symm, period.symm, alive.symm⟩
      · intro idle
        obtain ⟨rate, period, alive⟩ := idle trivial ⟨by rw [read0]; rfl, by rw [read1]; rfl, by rw [read2]; rfl⟩
        exact ⟨rate.symm, period.symm, alive.symm⟩
    · refine ⟨fun _ _ read => absurd read readable, fun _ => ?_⟩
      rw [settle_unreadable readable]
      exact settle_unreadable readable

theorem settle_ungoverned : settle { p with gauge := none } (ownResult none answers { p with gauge := none }) stored =
    settle p (ownResult none answers p) stored := by
  by_cases proto : p.proto = .up33cl
  · have empty : ∀ q : PoolRow, q.proto = .up33cl → poolState q (ownResult none answers q) stored = none := by
      intro q own
      unfold poolState
      rw [own]
      dsimp only
      rw [ownResult_ungoverned own 0]
      rfl
    unfold settle
    rw [empty p proto, empty { p with gauge := none } proto]
  · exact settle_gauge_aside proto

variable {addrs : List Address}

theorem mem_poolRowsQ (member : p ∈ pools.rows) (asked : p.address ∈ addrs) : { p with gauge := none } ∈ poolRowsQ pools addrs := by
  refine List.mem_filterMap.mpr ⟨p.address, asked, ?_⟩
  rw [Table.get?_of_mem member]
  rfl

theorem poolRowsQ_one {q : PoolRow} (inP : p ∈ poolRowsQ pools addrs) (inQ : q ∈ poolRowsQ pools addrs) (same : p.address = q.address) : p = q := by
  obtain ⟨a, -, readA⟩ := List.mem_filterMap.mp inP
  obtain ⟨b, -, readB⟩ := List.mem_filterMap.mp inQ
  obtain ⟨first, storedA, rfl⟩ := Option.map_eq_some_iff.mp readA
  obtain ⟨second, storedB, rfl⟩ := Option.map_eq_some_iff.mp readB
  change first.address = second.address at same
  rw [Table.eq_of_key (Table.get?_mem storedA) (Table.get?_mem storedB) same]

theorem sweepState_get {done : Nat} {states' : States} (ran : (sweepState gov answers pools addrs).run states = (.ok done, states'))
    (member : p ∈ pools.rows) (asked : p.address ∈ addrs) :
    states'.get? p.address = settle { p with gauge := none } (ownResult gov answers { p with gauge := none }) (states.get? p.address) := by
  rw [sweepState_own ran]
  exact foldl_get (fun _ inP _ inQ => poolRowsQ_one inP inQ) (mem_poolRowsQ member asked)

theorem sweepAllState_get {result : Nat × Nat} {states' : States} (ran : (sweepAllState gov answers pools).run states = (.ok result, states'))
    (member : p ∈ pools.rows) : states'.get? p.address = settle p (ownResult gov answers p) (states.get? p.address) := by
  rw [sweepAllState_own ran]
  exact foldl_get (fun _ inP _ inQ => Table.eq_of_key inP inQ) member

theorem sweepStatePage_get {cursor : Option Address} {limit : Nat} {result : Nat × Option Address} {states' : States}
    (ran : (sweepStatePage gov answers pools cursor limit).run states = (.ok result, states'))
    (member : p ∈ poolRowsPage pools cursor (max 1 limit)) :
    states'.get? p.address = settle p (ownResult gov answers p) (states.get? p.address) := by
  rw [sweepStatePage_own ran]
  exact foldl_get (fun _ inP _ inQ => Table.eq_of_key (Table.page_subset inP) (Table.page_subset inQ)) member

/-- The sweep by address leaves each catalog pool as the sweeps by page do, every pool of a page is swept from its
own results, and a pool whose required reads failed keeps its row. -/
structure SweepsAgree (gov : Option Address) (answers : Call → Option Value) (pools : Pools) (states : States) (addrs : List Address) : Prop where
  all : ∀ done after result afterAll, (sweepState gov answers pools addrs).run states = (.ok done, after) →
    (sweepAllState gov answers pools).run states = (.ok result, afterAll) →
    ∀ p ∈ pools.rows, p.address ∈ addrs → after.get? p.address = afterAll.get? p.address
  page : ∀ cursor limit done after result afterPage, (sweepState gov answers pools addrs).run states = (.ok done, after) →
    (sweepStatePage gov answers pools cursor limit).run states = (.ok result, afterPage) →
    ∀ p ∈ poolRowsPage pools cursor (max 1 limit), p.address ∈ addrs → after.get? p.address = afterPage.get? p.address
  own : ∀ (rows : List PoolRow) (results : List (List (Option Value))), List.Forall₂ (fun p own => own.length = width p) rows results →
    (rows.foldl (sweepRow results.flatten) ⟨states, 0, 0⟩).states =
      (rows.zip results).foldl (fun states row => (sweepRow row.2 ⟨states, 0, 0⟩ row.1).states) states
  kept : ∀ p ∈ pools.rows, ¬ Readable answers p →
    (∀ done after, (sweepState gov answers pools addrs).run states = (.ok done, after) → p.address ∈ addrs → after.get? p.address = states.get? p.address) ∧
      ∀ result afterAll, (sweepAllState gov answers pools).run states = (.ok result, afterAll) → afterAll.get? p.address = states.get? p.address

theorem SweepsAgree.idle (agree : SweepsAgree gov answers pools states addrs) : GaugesIdle gov answers pools addrs := by
  intro voter governed p member asked
  obtain rfl : gov = some voter := governed
  obtain ⟨done, after, ran⟩ := @sweepState_returns answers pools states voter addrs
  obtain ⟨result, afterAll, ranAll⟩ := @sweepPages_returns answers pools states voter (pools.rows.length + 1) 0 0 none
    (by rw [Table.after_none]; exact Nat.lt_succ_self _)
  have same := agree.all done after result afterAll ran ranAll p member asked
  rw [sweepState_get ran member asked, sweepAllState_get ranAll member] at same
  exact settle_withoutGauge.mp same

/-- The sweeps agree exactly where the gauges of the pools asked for answer nothing. -/
theorem sweeps_agree_iff (gov : Option Address) (answers : Call → Option Value) (pools : Pools) (states : States) (addrs : List Address) :
    SweepsAgree gov answers pools states addrs ↔ GaugesIdle gov answers pools addrs := by
  refine ⟨SweepsAgree.idle, fun idle => ?_⟩
  have settled : ∀ p ∈ pools.rows, p.address ∈ addrs → ∀ stored, settle { p with gauge := none } (ownResult gov answers { p with gauge := none }) stored =
      settle p (ownResult gov answers p) stored := by
    intro p member asked stored
    cases gov with
    | none => exact settle_ungoverned
    | some voter => exact settle_withoutGauge.mpr (idle voter rfl p member asked)
  refine ⟨fun done after result afterAll ran ranAll p member asked => ?_, fun cursor limit done after result afterPage ran ranPage p shown asked => ?_,
    fun rows results widths => @foldl_sweepRow states rows results widths [] 0, fun p member unreadable => ⟨fun done after ran asked => ?_, fun result afterAll ranAll => ?_⟩⟩
  · rw [sweepState_get ran member asked, sweepAllState_get ranAll member]
    exact settled p member asked _
  · rw [sweepState_get ran (Table.page_subset shown) asked, sweepStatePage_get ranPage shown]
    exact settled p (Table.page_subset shown) asked _
  · rw [sweepState_get ran member asked, settled p member asked]
    exact settle_unreadable unreadable
  · rw [sweepAllState_get ranAll member]
    exact settle_unreadable unreadable

def gaugedPool : PoolRow := ⟨10, .up33cl, 1, 2, some 20⟩

def streaming : Call → Option Value
  | ⟨_, .slot0⟩ => some (.slot0 100 0)
  | ⟨_, .rewardRate⟩ => some (.amount 5)
  | ⟨_, .isAlive _⟩ => some (.flag true)
  | _ => some (.amount 7)

/-- A sweep by address loses what the gauge answers. -/
theorem sweepState_drops_gauge :
    ¬ ∀ (gov : Option Address) (answers : Call → Option Value) (pools : Pools) (states : States) (addrs : List Address),
      SweepsAgree gov answers pools states addrs := by
  intro agree
  have idle := (agree (some 30) streaming (Table.put .empty gaugedPool) .empty [10]).idle
  obtain ⟨rate, -, -⟩ := idle 30 rfl gaugedPool (by decide) (by decide) rfl ⟨rfl, rfl, rfl⟩ 20 rfl
  exact absurd rate (by decide)

end LpTerminal.State
